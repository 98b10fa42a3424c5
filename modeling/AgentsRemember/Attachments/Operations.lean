import AgentsRemember.Control.WithdrawalCalls

/-!
# Attachments — Operations

Staged assets of one control channel (`serving/conversation/control/attachments.py`,
`asset_spool.py`): the operations, the spool with their bytes, and what each call
does to them between two of its awaits. An operation is an object that a call may
still hold when the channel has let go of it, so the channel names its operations by
their place, as it does its withdrawals. The withdrawals read the base of an
operation only.

The spool's own calls do not fail, save where a file is missing.
-/

namespace AgentsRemember.Attachments

open Submission Control

/-! ## Uploads -/

/-- One caller upload, already byte-bounded at the transport edge. -/
structure StagedUpload where
  kind : AttachmentKind
  name : String
  mimeType : String
  alt : Option String := none
  data : List UInt8

/-- What a harness takes of a kind. -/
structure AttachmentCapability where
  supported : Bool
  reason : String
  allowedMimeTypes : List String
  maxBytes : Nat
  descriptionRequired : Bool

/-- The upload is one the harness takes. -/
def validateUpload (upload : StagedUpload) (capability : AttachmentCapability) :
    Except String Unit :=
  if upload.mimeType ∉ capability.allowedMimeTypes then
    .error ("asset MIME type " ++ pyRepr upload.mimeType ++
      " is not in the fixture-backed allow-list")
  else if ¬(1 ≤ upload.data.length ∧ upload.data.length ≤ capability.maxBytes) then
    .error ("asset byte size " ++ toString upload.data.length ++ " exceeds the " ++
      toString capability.maxBytes ++ "-byte limit")
  else if upload.alt = none ∧ capability.descriptionRequired then
    .error "this attachment kind requires a supplied description"
  else if upload.name = "" then .error "asset name must be non-empty"
  else .ok ()

/-- The label of an upload, and where it came from. -/
def altFor (upload : StagedUpload) : String × AccessibleLabelProvenance :=
  match upload.alt with
  | some alt =>
    if alt = "" then (upload.name ++ ", " ++ upload.mimeType, .filenameMimeFallback)
    else (alt, .suppliedDescription)
  | none => (upload.name ++ ", " ++ upload.mimeType, .filenameMimeFallback)

/-- Of what a fingerprint of an asset is made. -/
structure UploadIdentity where
  kind : AttachmentKind
  name : String
  mimeType : String
  sha256 : String
  alt : Option String

/-! ## Submits -/

/-- An asset in a submission. -/
structure AssetSubmitBlock where
  assetId : String
  kind : AttachmentKind
  name : String
  mimeType : String
  alt : String
  altProvenance : AccessibleLabelProvenance
  sha256 : String

/-- A block of a submission. -/
inductive ComposerSubmitBlock where
  | text (text : String)
  | assetRef (block : AssetSubmitBlock)

/-- What the composer submits. -/
structure ConversationSubmitRequest where
  requestId : String
  content : List ComposerSubmitBlock
  draftRevision : Nat

/-- What the fingerprint of an operation is taken of, beside its session and epoch. -/
inductive FingerprintPayload where
  | stage (authorization : AuthorizationBinding) (requestId : String)
      (assets : List UploadIdentity)
  | rebound (authorization : AuthorizationBinding) (requestId : String)
      (asset : UploadIdentity) (rebindOf : String)
  | submit (authorization : AuthorizationBinding) (body : ConversationSubmitRequest)

/-- What the operations of one authority are bound to, and its digests. -/
structure AttachmentAuthority extends ControlAuthority where
  sha256 : List UInt8 → String
  operationFingerprint : FingerprintPayload → String

/-! ## Operations -/

/-- An operation with all that is kept of it. -/
structure StagedOperation extends AttachmentOperation where
  requestId : String
  fingerprint : String
  expiresAt : Nat
  operationRef : Option ControlRef := none
  submitFingerprint : Option String := none
  submitReceipt : Option SubmissionReceipt := none
  rebound : List (ControlRef × String × String) := []

/-- What a caller is shown of an operation. -/
structure AttachmentOperationProjection where
  requestId : String
  requestFingerprint : String
  operationRef : Option ControlRef
  revision : Nat
  phase : AttachmentPhase
  outcome : AttachmentOutcome
  assetIds : List String
  recoveryExpiresAt : Option Nat

/-- What a caller is shown of an asset. -/
structure AttachmentReceipt where
  assetId : String
  requestId : String
  requestFingerprint : String
  revision : Nat
  kind : AttachmentKind
  name : String
  mimeType : String
  sizeBytes : Nat
  sha256 : String
  alt : String
  altProvenance : AccessibleLabelProvenance
  expiresAt : Nat

/-- The answer of a stage call. -/
structure StageAnswer where
  operation : AttachmentOperationProjection
  receipts : List AttachmentReceipt

/-- The answer of a submission. -/
structure SubmitAnswer where
  requestId : String
  acceptance : AcceptanceState
  submittedAt : String
  bridgeEpoch : String
  operationRef : Option ControlRef
  attachment : Option AttachmentOperationProjection
  detail : Option String

/-- The outcomes that go with a phase. -/
def allowedOutcomes : AttachmentPhase → List AttachmentOutcome
  | .staging | .staged | .queued | .dispatching => [.pending]
  | .accepted => [.accepted]
  | .recoverable => [.withdrawn]
  | .failed => [.rejected, .failed]
  | .expired => [.expired]
  | .unknown => [.unknown]

namespace StagedOperation

/-- The projection of an operation, which its own model may refuse. -/
def projection (op : StagedOperation) : Except String AttachmentOperationProjection :=
  if op.outcome ∉ allowedOutcomes op.phase then
    .error "attachment phase/outcome product is contradictory"
  else if ¬(op.recoveryExpiresAt.isSome ↔ op.phase = .recoverable) then
    .error "attachment recovery expiry requires recoverable phase"
  else .ok
    { requestId := op.requestId
      requestFingerprint := op.fingerprint
      operationRef := op.operationRef
      revision := op.revision
      phase := op.phase
      outcome := op.outcome
      assetIds := op.assets.map (·.assetId)
      recoveryExpiresAt := op.recoveryExpiresAt }

/-- The receipt of an asset. -/
def receipt (op : StagedOperation) (asset : AssetRecord) : AttachmentReceipt where
  assetId := asset.assetId
  requestId := op.requestId
  requestFingerprint := op.fingerprint
  revision := op.revision
  kind := asset.kind
  name := asset.name
  mimeType := asset.mimeType
  sizeBytes := asset.sizeBytes
  sha256 := asset.sha256
  alt := asset.alt
  altProvenance := asset.altProvenance
  expiresAt := op.expiresAt

/-- The asset of an identity. -/
def find (op : StagedOperation) (assetId : String) : Option AssetRecord :=
  op.assets.find? fun asset => asset.assetId = assetId

/-- Where the bytes of an asset are spooled: `<requestId>/<assetId>`. -/
def path (op : StagedOperation) (assetId : String) : String × String := (op.requestId, assetId)

/-- The operation in another phase. -/
def enter (op : StagedOperation) (phase : AttachmentPhase) (outcome : AttachmentOutcome) :
    StagedOperation :=
  { op with phase := phase, outcome := outcome }

/-- The next revision. -/
def advanced (op : StagedOperation) : StagedOperation := { op with revision := op.revision + 1 }

/-- The records of a submit are used up. -/
def consume (op : StagedOperation) (assetIds : List String) : StagedOperation :=
  { op with assets := op.assets.map fun asset =>
      if asset.assetId ∈ assetIds then { asset with consumed := true } else asset }

end StagedOperation

/-! ## The channel -/

/-- The operations of a channel and their bytes. -/
structure AttachmentChannel where
  operations : List StagedOperation := []
  attachments : List (String × Nat) := []
  /-- the files of the spool -/
  spool : List ((String × String) × List UInt8) := []
  submits : List (String × String × SubmitAnswer) := []
  journal : List (String × JournalEntry) := []

/-- The cap on the operations. -/
def maxAttachmentOpsPerChannel : Nat := 32

/-- The cap on the journal. -/
def maxJournalEntriesPerChannel : Nat := 256

/-- The cap on the remembered submissions. -/
def maxSubmitsPerChannel : Nat := 256

/-- How long staged bytes are kept. -/
def stagedAssetTtlSeconds : Nat := 900

namespace AttachmentChannel

/-- The operation that the channel retains under a request id, with its place. -/
def retained (c : AttachmentChannel) (requestId : String) : Option (Nat × StagedOperation) :=
  (c.attachments.lookup requestId).bind fun i => (c.operations[i]?).map fun op => (i, op)

/-- The operation at a place, changed. -/
def update (c : AttachmentChannel) (i : Nat) (f : StagedOperation → StagedOperation) :
    AttachmentChannel :=
  { c with operations := c.operations.modify i f }

/-- Delete every staged byte for one operation. -/
def deleteAssetBytes (c : AttachmentChannel) (op : StagedOperation) : AttachmentChannel :=
  let paths := op.assets.map fun asset => op.path asset.assetId
  { c with spool := paths.foldl Keyed.erase c.spool }

/-- The operation that is over: its phase is set, and its bytes are deleted. -/
def close (c : AttachmentChannel) (i : Nat) (op : StagedOperation)
    (f : StagedOperation → StagedOperation) : AttachmentChannel :=
  (c.update i f).deleteAssetBytes op

/-- The operation, expired. -/
def expired (op : StagedOperation) : StagedOperation := (op.enter .expired .expired).advanced

/-- The operation at a place, if it has expired. -/
def sweepOne (now : Nat) (c : AttachmentChannel) (i : Nat) : AttachmentChannel :=
  match c.operations[i]? with
  | none => c
  | some op => if op.phase = .staged ∧ op.expiresAt ≤ now then c.close i op expired else c

/-- `_sweep_expired`. -/
def sweepExpired (c : AttachmentChannel) (now : Nat) : AttachmentChannel :=
  (c.attachments.map Prod.snd).foldl (sweepOne now) c

/-- Nothing of the operation is waited for. -/
def isDone (op : StagedOperation) : Bool :=
  op.phase = .accepted || op.phase = .failed || op.phase = .expired

/-- `_evict_attachment_operation`: the oldest operation that is over makes room. -/
def evictAttachmentOperation (c : AttachmentChannel) (incoming : String) :
    Except String AttachmentChannel :=
  match c.attachments.find? fun e => e.1 ≠ incoming && (c.operations[e.2]?).any isDone with
  | none => .error "attachment operation store is full of live operations"
  | some (victim, i) =>
    match c.operations[i]? with
    | none => .error "attachment operation store is full of live operations"
    | some op =>
      .ok (deleteAssetBytes { c with attachments := Keyed.erase c.attachments victim } op)

/-- Room for one more operation. -/
def makeRoom (c : AttachmentChannel) (incoming : String) : Except String AttachmentChannel :=
  if maxAttachmentOpsPerChannel ≤ c.attachments.length then c.evictAttachmentOperation incoming
  else .ok c

/-- One operation more. -/
def add (c : AttachmentChannel) (op : StagedOperation) : AttachmentChannel :=
  { c with
    operations := c.operations ++ [op]
    attachments := Keyed.set c.attachments op.requestId c.operations.length }

end AttachmentChannel

end AgentsRemember.Attachments
