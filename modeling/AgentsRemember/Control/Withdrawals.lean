import AgentsRemember.Control.Refs
import AgentsRemember.Foundation.Keyed

/-!
# Control — Withdrawals

The withdrawal records of one control channel and the recoveries they retain,
with what each call does between two of its awaits. A record is an object that a
call may still hold when the channel has let go of it, so the channel names its
records by their place. Deleting the bytes of attachments may fail.
-/

namespace AgentsRemember.Control

open Submission

/-! ## Records -/

/-- How far a withdrawal is. -/
inductive WithdrawalPhase where
  | requested | linearizing | settled | unknown
deriving DecidableEq

/-- How a withdrawal came out. -/
inductive WithdrawalOutcome where
  | pending | withdrawn | alreadyDispatching | deliveryUnknown | epochMismatch | notFound
  | requestConflict
deriving DecidableEq

/-- Where the recovery of a withdrawal stands. -/
inductive RecoveryState where
  | none | recoveryUnacknowledged | acknowledged | expired
deriving DecidableEq

/-- The kinds of attachment. -/
inductive AttachmentKind where
  | image | file | resource
deriving DecidableEq

/-- Where an accessible label came from. -/
inductive AccessibleLabelProvenance where
  | suppliedDescription | filenameMimeFallback
deriving DecidableEq

/-- An attachment of a recovery. -/
structure AttachmentRecoveryRef where
  recoveryAssetRef : ControlRef
  revision : Nat
  kind : AttachmentKind
  name : String
  mimeType : String
  sizeBytes : Nat
  sha256 : String
  alt : String
  altProvenance : AccessibleLabelProvenance
  expiresAt : Nat
deriving DecidableEq

/-- The draft a withdrawal gives back. -/
structure WithdrawalRecovery where
  recoveryRef : ControlRef
  text : String
  contentDigest : String
  submittedDraftRevision : Option Nat := none
  attachments : List AttachmentRecoveryRef
deriving DecidableEq

/-- The answer of a granted withdrawal. -/
structure WithdrawnQueueResponse where
  withdrawRequestId : String
  requestFingerprint : String
  revision : Nat
  operationRef : ControlRef
  withdrawnAt : Nat
  recovery : WithdrawalRecovery
deriving DecidableEq

/-- The answer of any other. -/
structure FailedWithdrawalResponse where
  withdrawRequestId : String
  requestFingerprint : String
  revision : Nat
  outcome : WithdrawalOutcome
  operationRef : ControlRef
  detail : String
deriving DecidableEq

/-- The answer of a withdrawal. -/
inductive WithdrawQueueResponse where
  | withdrawn (response : WithdrawnQueueResponse)
  | failed (response : FailedWithdrawalResponse)
deriving DecidableEq

/-- The operation a withdrawal was of. -/
def WithdrawQueueResponse.operationRef : WithdrawQueueResponse → ControlRef
  | .withdrawn response => response.operationRef
  | .failed response => response.operationRef

/-- What is retained of a withdrawn draft. -/
structure RecoveryRecord where
  recoveryRef : ControlRef
  withdrawRequestId : String
  operation : OperationIdentity
  revision : Nat
  state : RecoveryState
  text : Option String
  contentDigest : String
  submittedDraftRevision : Option Nat
  attachmentRefs : List AttachmentRecoveryRef
  expiresAt : Nat

/-- A record of a withdrawal. -/
structure WithdrawalRecord where
  withdrawRequestId : String
  fingerprint : String
  revision : Nat
  bridgeEpoch : String
  operation : OperationIdentity
  phase : WithdrawalPhase
  outcome : WithdrawalOutcome
  detail : Option String
  withdrawnAt : Option Nat
  recoveryState : RecoveryState
  recoveryRef : Option ControlRef
  recoveryExpiresAt : Option Nat
  response : WithdrawQueueResponse
deriving DecidableEq

/-! ## Attachments and the journal -/

/-- How far an attachment is. -/
inductive AttachmentPhase where
  | staging | staged | queued | dispatching | accepted | recoverable | failed | expired | unknown
deriving DecidableEq

/-- How an attachment came out. -/
inductive AttachmentOutcome where
  | pending | accepted | rejected | withdrawn | failed | expired | unknown
deriving DecidableEq

/-- One staged asset. -/
structure AssetRecord where
  assetId : String
  kind : AttachmentKind
  name : String
  mimeType : String
  sizeBytes : Nat
  sha256 : String
  alt : String
  altProvenance : AccessibleLabelProvenance
  consumed : Bool := false

/-- The attachments of one operation. -/
structure AttachmentOperation where
  revision : Nat
  phase : AttachmentPhase
  outcome : AttachmentOutcome
  assets : List AssetRecord
  recoveryExpiresAt : Option Nat := none

/-- Transition a withdrawn operation's assets to recoverable under the lease. -/
def markRecoverable (attachments : List (String × AttachmentOperation)) (requestId : String)
    (recoveryExpiresAt : Nat) : List (String × AttachmentOperation) × List AssetRecord :=
  match attachments.lookup requestId with
  | none => (attachments, [])
  | some operation =>
    let marked : AttachmentOperation :=
      if operation.phase ∈ [.staged, .queued, .dispatching, .unknown] then
        { operation with
          phase := .recoverable
          outcome := .withdrawn
          recoveryExpiresAt := some recoveryExpiresAt
          revision := operation.revision + 1
          assets := operation.assets.map fun asset => { asset with consumed := false } }
      else operation
    (Keyed.set attachments requestId marked, marked.assets.filter fun asset => !asset.consumed)

/-- Delete recoverable bytes; `none` when the deletion raises. -/
def deleteRecoverable (deletes : Bool) (attachments : List (String × AttachmentOperation))
    (requestId : String) : Option (List (String × AttachmentOperation)) :=
  match attachments.lookup requestId with
  | none => some attachments
  | some operation =>
    if operation.phase ≠ .recoverable then some attachments
    else if deletes = false ∧ operation.assets ≠ [] then none
    else some (Keyed.set attachments requestId
      { operation with
        phase := .expired
        outcome := .expired
        recoveryExpiresAt := none
        revision := operation.revision + 1 })

/-- One cockpit submission's content, as the daemon holds it. -/
structure JournalEntry where
  text : String
  contentDigest : String
  draftRevision : Option Nat

/-! ## The substrate's answers -/

/-- What the substrate decides on a withdrawal. -/
inductive SubstrateOutcome where
  | withdrawn | notWithdrawable | notFound
deriving DecidableEq

/-- The body that the tombstone consumed; it crosses once, if at all. -/
structure SubstrateRecovery where
  text : Option String
  assets : List AssetReference := []

/-- The answer of the substrate. -/
structure WithdrawalResult where
  outcome : SubstrateOutcome
  state : Option SubmissionLifecycleState := none
  withdrawnAt : Option Nat := none
  detail : Option String := none
  recovery : Option SubstrateRecovery := none

/-! ## The channel -/

/-- The two ledgers; `withdrawals` names its records by their place in `records`. -/
structure WithdrawalBooks where
  withdrawals : List (String × Nat) := []
  records : List WithdrawalRecord := []
  recoveries : List (String × RecoveryRecord) := []

/-- The ledgers of one control channel. -/
structure ControlChannel extends WithdrawalBooks where
  attachments : List (String × AttachmentOperation) := []
  journal : List (String × JournalEntry) := []
  pendingRevision : Nat := 0
  pendingKey : List (ControlRef × Nat) := []

/-- The cap on the withdrawals. -/
def maxWithdrawalsPerChannel : Nat := 64

/-- The cap on the recoveries. -/
def maxRecoveriesPerChannel : Nat := 32

/-- How long a recovery is kept. -/
def recoveryTtlSeconds : Nat := 900

/-- The record that the channel retains under a request id, with its place. -/
def WithdrawalBooks.retained (b : WithdrawalBooks) (withdrawRequestId : String) :
    Option (Nat × WithdrawalRecord) :=
  (b.withdrawals.lookup withdrawRequestId).bind fun i => (b.records[i]?).map fun r => (i, r)

/-- A record, written at its place. -/
def WithdrawalBooks.setRecord (b : WithdrawalBooks) (i : Nat) (record : WithdrawalRecord) :
    WithdrawalBooks :=
  { b with records := b.records.set i record }

/-- A recovery under its request. -/
def WithdrawalBooks.setRecovery (b : WithdrawalBooks) (recovery : RecoveryRecord) :
    WithdrawalBooks :=
  { b with recoveries := Keyed.set b.recoveries recovery.withdrawRequestId recovery }

/-! ## The lease -/

/-- A recovery that is disposed of: its text is gone and its revision advances. -/
def RecoveryRecord.dispose (recovery : RecoveryRecord) (state : RecoveryState) : RecoveryRecord :=
  { recovery with state := state, revision := recovery.revision + 1, text := none }

/-- The recovery of a record, disposed of. -/
def WithdrawalRecord.dispose (record : WithdrawalRecord) (state : RecoveryState) :
    WithdrawalRecord :=
  { record with recoveryState := state, revision := record.revision + 1 }

/-- The withdrawal's recovery has expired. -/
def WithdrawalBooks.expireWithdrawal (b : WithdrawalBooks) (withdrawRequestId : String) :
    WithdrawalBooks :=
  match b.retained withdrawRequestId with
  | none => b
  | some (i, record) =>
    if record.recoveryState = .recoveryUnacknowledged then b.setRecord i (record.dispose .expired)
    else b

/-- One round of the sweep; the error is the channel that a failed deletion leaves. -/
def sweepRecovery (now : Nat) (deletes : Bool) (c : ControlChannel) (withdrawRequestId : String) :
    Except ControlChannel ControlChannel :=
  match c.recoveries.lookup withdrawRequestId with
  | none => .ok c
  | some recovery =>
    if recovery.state = .recoveryUnacknowledged ∧ recovery.expiresAt ≤ now then
      let expired := c.setRecovery (recovery.dispose .expired)
      match deleteRecoverable deletes c.attachments recovery.operation.operationId with
      | none => .error { c with toWithdrawalBooks := expired }
      | some attachments =>
        .ok { c with
          toWithdrawalBooks := expired.expireWithdrawal recovery.withdrawRequestId
          attachments := attachments }
    else .ok c

/-- Expire unacknowledged recoveries past their lease, in the order of the ledger. -/
def sweepRecoveries (now : Nat) (deletes : Bool) (c : ControlChannel) :
    Except ControlChannel ControlChannel :=
  (c.recoveries.map Prod.fst).foldlM (sweepRecovery now deletes) c

/-! ## The two ledgers -/

/-- Nothing is left to acknowledge. -/
def isDisposed (state : RecoveryState) : Bool :=
  state = .none || state = .acknowledged || state = .expired

/-- The first withdrawal that retains no recovery, or else the oldest. -/
def WithdrawalBooks.withdrawalVictim (b : WithdrawalBooks) : Option String :=
  match b.withdrawals.find? fun e => (b.records[e.2]?).any fun r => isDisposed r.recoveryState with
  | some e => some e.1
  | none => b.withdrawals.head?.map Prod.fst

/-- Withdrawals are let go, at most the excess. -/
def WithdrawalBooks.reclaimWithdrawals (b : WithdrawalBooks) : Nat → WithdrawalBooks
  | 0 => b
  | excess + 1 =>
    match b.withdrawalVictim with
    | none => b
    | some victim =>
      { b with withdrawals := Keyed.erase b.withdrawals victim }.reclaimWithdrawals excess

/-- A withdrawal, stored and the oldest let go. -/
def WithdrawalBooks.storeWithdrawal (b : WithdrawalBooks) (record : WithdrawalRecord) :
    WithdrawalBooks :=
  let stored := { b with
    withdrawals := Keyed.set b.withdrawals record.withdrawRequestId b.records.length
    records := b.records ++ [record] }
  stored.reclaimWithdrawals (stored.withdrawals.length - maxWithdrawalsPerChannel)

/-- Under pressure the oldest recoveries go, with full disposal; the error is the
channel that a failed deletion leaves. -/
def reclaimRecoveries (deletes : Bool) (c : ControlChannel) :
    Nat → Except ControlChannel ControlChannel
  | 0 => .ok c
  | excess + 1 =>
    match c.recoveries with
    | [] => .ok c
    | (key, victim) :: rest =>
      if victim.state = .recoveryUnacknowledged then
        match deleteRecoverable deletes c.attachments victim.operation.operationId with
        | none =>
          .error { c with
            recoveries := (key, { victim with state := .expired, text := none }) :: rest }
        | some attachments =>
          reclaimRecoveries deletes { c with recoveries := rest, attachments := attachments } excess
      else reclaimRecoveries deletes { c with recoveries := rest } excess

/-- A recovery, stored and the oldest let go. -/
def storeRecovery (deletes : Bool) (c : ControlChannel) (record : RecoveryRecord) :
    Except ControlChannel ControlChannel :=
  let stored : ControlChannel := { c with toWithdrawalBooks := c.setRecovery record }
  reclaimRecoveries deletes stored (stored.recoveries.length - maxRecoveriesPerChannel)

/-! ## What a call answers -/

/-- What a caller is shown of a withdrawal. -/
structure WithdrawalOperationProjection where
  withdrawRequestId : String
  requestFingerprint : String
  operationRef : ControlRef
  revision : Nat
  phase : WithdrawalPhase
  outcome : WithdrawalOutcome
  recoveryState : RecoveryState
  recoveryExpiresAt : Option Nat

/-- A recovery that is not acknowledged. -/
structure PendingWithdrawalRecoveryProjection where
  recoveryRef : ControlRef
  operationRef : ControlRef
  withdrawRequestId : String
  revision : Nat
  recoveryExpiresAt : Nat

/-- The recoveries that are not acknowledged. -/
structure PendingWithdrawalRecoveryList where
  bridgeEpoch : String
  revision : Nat
  items : List PendingWithdrawalRecoveryProjection

/-- What a caller is answered. -/
inductive Answer where
  | raised (message : String)
  | response (response : WithdrawQueueResponse)
  | projection (projection : WithdrawalOperationProjection)
  | pending (list : PendingWithdrawalRecoveryList)
  | recovery (recovery : WithdrawalRecovery)

/-- The phases, outcomes and recovery states that go together. -/
def allowedProducts : List (WithdrawalPhase × WithdrawalOutcome × RecoveryState) :=
  [(.requested, .pending, .none), (.linearizing, .pending, .none),
    (.unknown, .deliveryUnknown, .none), (.settled, .withdrawn, .recoveryUnacknowledged),
    (.settled, .withdrawn, .acknowledged), (.settled, .withdrawn, .expired),
    (.settled, .alreadyDispatching, .none), (.settled, .epochMismatch, .none),
    (.settled, .notFound, .none), (.settled, .requestConflict, .none)]

/-- The projection of a record, which its own model may refuse. -/
def withdrawalProjection (record : WithdrawalRecord) : Answer :=
  if (record.phase, record.outcome, record.recoveryState) ∉ allowedProducts then
    .raised "withdrawal phase/outcome/recovery product is contradictory"
  else if record.recoveryState = .recoveryUnacknowledged ∧ record.recoveryExpiresAt = none then
    .raised "unacknowledged recovery requires expiry"
  else if record.recoveryState = .none ∧ record.recoveryExpiresAt ≠ none then
    .raised "non-recovery withdrawal cannot carry recovery expiry"
  else .projection
    { withdrawRequestId := record.withdrawRequestId
      requestFingerprint := record.fingerprint
      operationRef := record.response.operationRef
      revision := record.revision
      phase := record.phase
      outcome := record.outcome
      recoveryState := record.recoveryState
      recoveryExpiresAt := record.recoveryExpiresAt }

/-- Idempotent replay: same outcome and revision; bodies stay disposed. -/
def replayResponse (record : WithdrawalRecord) : WithdrawQueueResponse :=
  match record.response with
  | .failed response => .failed response
  | .withdrawn response =>
    if record.recoveryState = .acknowledged ∨ record.recoveryState = .expired then
      .withdrawn { response with
        recovery := { response.recovery with text := "", attachments := [] } }
    else .withdrawn response

/-! ## Drive -/

/-- What the records of one authority are bound to, and its digests. -/
structure ControlAuthority where
  arSessionId : String
  bridgeEpoch : String
  payloadDigest : String → List AssetReference → String
  /-- The fingerprint of a withdrawal request. -/
  fingerprint : AuthorizationBinding → OperationIdentity → String → String

/-- What a withdrawal asks with. -/
structure WithdrawalTicket where
  authorization : AuthorizationBinding
  identity : OperationIdentity
  operationRef : ControlRef
  fingerprint : String
  withdrawRequestId : String

section drive
variable (authority : ControlAuthority)

/-- What a reference is bound to. -/
def ControlAuthority.binding (authorization : AuthorizationBinding) : RefBinding :=
  ⟨authorization, authority.arSessionId, authority.bridgeEpoch⟩

/-- The reference of an operation. -/
def mintOperationRef (authorization : AuthorizationBinding) (identity : OperationIdentity) :
    ControlRef :=
  ⟨.operationRef, authority.binding authorization, { identity := identity }⟩

/-- The record of a withdrawal that was not granted. -/
def settledFailure (ticket : WithdrawalTicket) (outcome : WithdrawalOutcome) (detail : String) :
    WithdrawalRecord where
  withdrawRequestId := ticket.withdrawRequestId
  fingerprint := ticket.fingerprint
  revision := 1
  bridgeEpoch := authority.bridgeEpoch
  operation := ticket.identity
  phase := .settled
  outcome := outcome
  detail := some detail
  withdrawnAt := none
  recoveryState := .none
  recoveryRef := none
  recoveryExpiresAt := none
  response := .failed
    ⟨ticket.withdrawRequestId, ticket.fingerprint, 1, outcome, ticket.operationRef, detail⟩

/-- The record of a withdrawal whose answer was lost. -/
def unknownWithdrawal (ticket : WithdrawalTicket) (detail : String) : WithdrawalRecord :=
  { settledFailure authority ticket .deliveryUnknown
      ("withdrawal response was lost after request bytes were sent: " ++ detail) with
    phase := .unknown
    detail := some detail }

/-- An empty detail counts for none. -/
def detailOr (detail : Option String) (otherwise : String) : String :=
  match detail with
  | none => otherwise
  | some detail => if detail = "" then otherwise else detail

/-- Map any non-withdrawn substrate outcome to its failure record. -/
def failureForResult (ticket : WithdrawalTicket) (result : WithdrawalResult) :
    Option WithdrawalRecord :=
  let stateText := (result.state.map SubmissionLifecycleState.wire).getD "None"
  match result.outcome with
  | .withdrawn => none
  | .notFound => some (settledFailure authority ticket .notFound
      (detailOr result.detail "submission is not retained for this cockpit authority"))
  | .notWithdrawable =>
    let outcome : WithdrawalOutcome :=
      if result.state = some .dispatching then .alreadyDispatching
      else if result.state = some .unknown then .deliveryUnknown
      else .notFound
    some (settledFailure authority ticket outcome
      (detailOr result.detail ("submission is already " ++ stateText)))

/-- Substrate payload first; the submit journal is the source of last resort. -/
def recoveryText (recovery : Option SubstrateRecovery) (journal : Option JournalEntry) :
    Option String :=
  match recovery.bind (·.text) with
  | some text => some text
  | none => journal.map (·.text)

/-- The digest of the draft, or the one the journal has. -/
def recoveryDigest (text : Option String) (assets : List AssetReference)
    (journal : Option JournalEntry) : String :=
  match text with
  | some text => authority.payloadDigest text assets
  | none =>
    match journal with
    | some journal => journal.contentDigest
    | none => authority.payloadDigest "" []

/-- The reference of a retained asset. -/
def attachmentRecoveryRef (ticket : WithdrawalTicket) (expiresAt : Nat) (asset : AssetRecord) :
    AttachmentRecoveryRef where
  recoveryAssetRef := ⟨.recoveryAssetRef, authority.binding ticket.authorization,
    ⟨ticket.identity, some ticket.withdrawRequestId, some asset.assetId⟩⟩
  revision := 1
  kind := asset.kind
  name := asset.name
  mimeType := asset.mimeType
  sizeBytes := asset.sizeBytes
  sha256 := asset.sha256
  alt := asset.alt
  altProvenance := asset.altProvenance
  expiresAt := expiresAt

/-- The recovery that a granted withdrawal retains; it may be empty. -/
def recoveredRecord (c : ControlChannel) (ticket : WithdrawalTicket) (result : WithdrawalResult)
    (now : Nat) : RecoveryRecord :=
  let journal := c.journal.lookup ticket.identity.operationId
  let text := recoveryText result.recovery journal
  let expiresAt := result.withdrawnAt.getD now + recoveryTtlSeconds
  let recoverable := (markRecoverable c.attachments ticket.identity.operationId expiresAt).2
  { recoveryRef := ⟨.recoveryRef, authority.binding ticket.authorization,
      { identity := ticket.identity, withdrawRequestId := some ticket.withdrawRequestId }⟩
    withdrawRequestId := ticket.withdrawRequestId
    operation := ticket.identity
    revision := 1
    state := .recoveryUnacknowledged
    text := text
    contentDigest := recoveryDigest authority text
      ((result.recovery.map (·.assets)).getD []) journal
    submittedDraftRevision := journal.bind (·.draftRevision)
    attachmentRefs := recoverable.map (attachmentRecoveryRef authority ticket expiresAt)
    expiresAt := expiresAt }

/-- Whether a recovery has anything to recover. -/
def RecoveryRecord.isContentful (recovery : RecoveryRecord) : Bool :=
  recovery.text.isSome || !recovery.attachmentRefs.isEmpty

/-- The record of a granted withdrawal. -/
def withdrawnRecord (ticket : WithdrawalTicket) (result : WithdrawalResult) (now : Nat)
    (recovery : RecoveryRecord) : WithdrawalRecord where
  withdrawRequestId := ticket.withdrawRequestId
  fingerprint := ticket.fingerprint
  revision := 1
  bridgeEpoch := authority.bridgeEpoch
  operation := ticket.identity
  phase := .settled
  outcome := .withdrawn
  detail := result.detail
  withdrawnAt := some (result.withdrawnAt.getD now)
  recoveryState := if recovery.isContentful then .recoveryUnacknowledged else .none
  recoveryRef := if recovery.isContentful then some recovery.recoveryRef else none
  recoveryExpiresAt := if recovery.isContentful then some recovery.expiresAt else none
  response := .withdrawn
    { withdrawRequestId := ticket.withdrawRequestId
      requestFingerprint := ticket.fingerprint
      revision := 1
      operationRef := ticket.operationRef
      withdrawnAt := result.withdrawnAt.getD now
      recovery :=
        { recoveryRef := recovery.recoveryRef
          text := recovery.text.getD ""
          contentDigest := recovery.contentDigest
          submittedDraftRevision := recovery.submittedDraftRevision
          attachments := recovery.attachmentRefs } }

/-- The record of a substrate answer, with the channel that retains its recovery. -/
def applyWithdrawalResult (deletes : Bool) (now : Nat) (c : ControlChannel)
    (ticket : WithdrawalTicket) (result : WithdrawalResult) :
    Except ControlChannel (WithdrawalRecord × ControlChannel) :=
  match failureForResult authority ticket result with
  | some failure => .ok (failure, c)
  | none =>
    let recovery := recoveredRecord authority c ticket result now
    let record := withdrawnRecord authority ticket result now recovery
    let marked : ControlChannel := { c with
      attachments :=
        (markRecoverable c.attachments ticket.identity.operationId recovery.expiresAt).1 }
    if recovery.isContentful then
      match storeRecovery deletes marked recovery with
      | .error c' => .error c'
      | .ok c' => .ok (record, c')
    else .ok (record, marked)

end drive

/-! ## Calls of one section -/

section calls
variable (authority : ControlAuthority)

/-- The opaque pending-recovery list; never content of any kind. -/
def pendingRecoveries (c : ControlChannel) (authorization : AuthorizationBinding) :
    Answer × ControlChannel :=
  let held := (c.recoveries.map Prod.snd).filter fun r => r.state = .recoveryUnacknowledged
  let key := held.map fun r => (r.recoveryRef, r.revision)
  let c' := if key = c.pendingKey then c
    else { c with pendingKey := key, pendingRevision := c.pendingRevision + 1 }
  (.pending
    { bridgeEpoch := authority.bridgeEpoch
      revision := max 1 c'.pendingRevision
      items := held.map fun r =>
        { recoveryRef := r.recoveryRef
          operationRef := mintOperationRef authority authorization r.operation
          withdrawRequestId := r.withdrawRequestId
          revision := r.revision
          recoveryExpiresAt := r.expiresAt } }, c')

/-- The recovery a reference names. -/
def WithdrawalBooks.findRecovery (b : WithdrawalBooks) (recoveryRef : Token) :
    Option RecoveryRecord :=
  (b.recoveries.map Prod.snd).find? fun r => some r.recoveryRef = recoveryRef

/-- The authenticated exact recovery fetch; only while unacknowledged. -/
def fetchRecovery (c : ControlChannel) (authorization : AuthorizationBinding)
    (recoveryRef : Token) : Answer :=
  match decodeRef recoveryRef .recoveryRef (authority.binding authorization) with
  | .error message => .raised message
  | .ok _ =>
    match c.findRecovery recoveryRef with
    | none => .raised "the withdrawal recovery is not retained"
    | some recovery =>
      match recovery.state, recovery.text with
      | .recoveryUnacknowledged, some text => .recovery
        { recoveryRef := recovery.recoveryRef
          text := text
          contentDigest := recovery.contentDigest
          submittedDraftRevision := recovery.submittedDraftRevision
          attachments := recovery.attachmentRefs }
      | _, _ => .raised "the withdrawal recovery is not retained for fetching"

/-- What becomes of the current draft. -/
inductive Disposition where
  | replaceCurrentDraft | keepCurrentDraft
deriving DecidableEq

/-- Record the draft disposition, advance the revision, and permit disposal. -/
def acknowledgeRecovery (deletes : Bool) (c : ControlChannel)
    (authorization : AuthorizationBinding) (recoveryRef : Token) (disposition : Disposition) :
    Answer × ControlChannel :=
  match decodeRef recoveryRef .recoveryRef (authority.binding authorization) with
  | .error message => (.raised message, c)
  | .ok _ =>
    match c.findRecovery recoveryRef with
    | none => (.raised "the withdrawal recovery is not retained", c)
    | some recovery =>
      if recovery.state ≠ .recoveryUnacknowledged then
        (.raised "the withdrawal recovery is not awaiting acknowledgement", c)
      else
        -- written first, and so also where the call fails behind it
        let acknowledged := c.setRecovery (recovery.dispose .acknowledged)
        match acknowledged.retained recovery.withdrawRequestId with
        | none =>
          (.raised "the recovery's withdrawal operation is not retained",
            { c with toWithdrawalBooks := acknowledged })
        | some (i, record) =>
          let updated := record.dispose .acknowledged
          let c' : ControlChannel :=
            { c with toWithdrawalBooks := acknowledged.setRecord i updated }
          if disposition = .keepCurrentDraft then
            match deleteRecoverable deletes c'.attachments record.operation.operationId with
            | none => (.raised "attachment bytes were not deleted", c')
            | some attachments =>
              (withdrawalProjection updated, { c' with attachments := attachments })
          else (withdrawalProjection updated, c')

end calls

end AgentsRemember.Control
