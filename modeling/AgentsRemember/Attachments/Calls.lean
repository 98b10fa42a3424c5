import AgentsRemember.Attachments.Operations

/-!
# Attachments — Calls

Any number of attachment calls in flight on one control channel. A call runs without a
pause between two of its awaits, so each section is one step: `submit` awaits the
control plane and then the timeline, and a reconcile awaits the timeline. What comes
back is arbitrary. No lock is held across an await.

The withdrawals reach the operations through `markRecoverable` and
`deleteRecoverable` alone, each within one section of theirs. The suffix of an asset's
identity is drawn at random, and is taken to make an identity that no asset of the
channel has had.
-/

namespace AgentsRemember.Attachments

open Submission Control

/-- What a call answers. -/
inductive AttachmentAnswer where
  | raised (message : String)
  | staged (answer : StageAnswer)
  | submitted (answer : SubmitAnswer)
  | operation (projection : AttachmentOperationProjection)

/-- The receipt refuses the submission. -/
def isTerminalSubmitAcceptance (acceptance : AcceptanceState) : Bool :=
  acceptance = .rejected || acceptance = .unsupported

/-- A submit that awaits the control plane, or the timeline after it. -/
structure Submitting where
  authorization : AuthorizationBinding
  body : ConversationSubmitRequest
  text : String
  operation : Option Nat
  records : List AssetReference
  fingerprint : String

/-- The assets a submission names. -/
def Submitting.assetIds (call : Submitting) : List String := call.records.map (·.assetId)

/-- A submit whose receipt is there. -/
structure Minting extends Submitting where
  receipt : SubmissionReceipt
  answer : SubmitAnswer

/-- What a submission came to. -/
inductive SentOutcome where
  | awaited
  /-- Nothing was sent, or the bridge refused it. -/
  | raised
  | answered (acceptance : AcceptanceState)
deriving DecidableEq

/-- What one submit handed to the control plane, and how it ended. -/
structure Sent where
  requestId : String
  assets : List String
  /-- where its operation stood -/
  phase : Option AttachmentPhase
  outcome : SentOutcome := .awaited
deriving DecidableEq

/-- It did not end rejected or unsupported. -/
def Sent.live (sent : Sent) : Bool :=
  match sent.outcome with
  | .awaited => true
  | .raised => false
  | .answered acceptance => !isTerminalSubmitAcceptance acceptance

/-- What a rebind exchanged a reference for, or answered that it had. -/
structure Exchange where
  recoveryAssetRef : ControlRef
  requestId : String
  assetId : String

/-- The channel with its calls in flight. A submit is known by its place in `sent`,
where each is put on record as it is sent. -/
structure AttachmentSystem where
  channel : AttachmentChannel := {}
  submitting : List (Nat × Submitting) := []
  minting : List (Nat × Minting) := []
  reconciling : List Nat := []
  answered : Option AttachmentAnswer := none
  sent : List Sent := []
  exchanges : List Exchange := []

/-! ## Staging -/

/-- A request id that may name a directory. -/
def requireSafeComponent (value : String) : Except String Unit :=
  if value = "" ∨ 255 < value.utf8ByteSize ∨ '/' ∈ value.toList ∨ '\x00' ∈ value.toList ∨
      value = "." ∨ value = ".." then
    .error "requestId is not a safe staging component"
  else .ok ()

/-- The identity of an asset: its position and a random part. -/
def assetIdOf (position : Nat) (suffix : String) : String :=
  "asset-" ++ toString position ++ "-" ++ suffix

section calls
variable (authority : AttachmentAuthority)

/-- What an upload is told by. -/
def uploadIdentity (upload : StagedUpload) : UploadIdentity where
  kind := upload.kind
  name := upload.name
  mimeType := upload.mimeType
  sha256 := authority.sha256 upload.data
  alt := upload.alt

/-- What a stored asset is told by. -/
def uploadIdentityFromRecord (asset : AssetRecord) : UploadIdentity where
  kind := asset.kind
  name := asset.name
  mimeType := asset.mimeType
  sha256 := asset.sha256
  alt := some asset.alt

/-- The record of an upload. -/
def stagedRecord (upload : StagedUpload) (assetId : String) : AssetRecord where
  assetId := assetId
  kind := upload.kind
  name := upload.name
  mimeType := upload.mimeType
  sizeBytes := upload.data.length
  sha256 := authority.sha256 upload.data
  alt := (altFor upload).1
  altProvenance := (altFor upload).2

/-- `stage_one`: gate and validate one upload, before it is spooled. -/
def stageOne (kindCapabilities : AttachmentKind → Option AttachmentCapability)
    (upload : StagedUpload) (assetId : String) : Except String AssetRecord :=
  match kindCapabilities upload.kind with
  | none => .error "unknown attachment kind"
  | some capability =>
    if capability.supported = false then .error capability.reason
    else (validateUpload upload capability).map fun _ => stagedRecord authority upload assetId

/-- The uploads in turn. What was spooled before one is refused stays in the spool. -/
def stageUploads (kindCapabilities : AttachmentKind → Option AttachmentCapability)
    (requestId : String) (suffix : Nat → String) :
    Nat → List StagedUpload → List ((String × String) × List UInt8) →
      List ((String × String) × List UInt8) × Except String (List AssetRecord)
  | _, [], spool => (spool, .ok [])
  | position, upload :: uploads, spool =>
    match stageOne authority kindCapabilities upload (assetIdOf position (suffix position)) with
    | .error message => (spool, .error message)
    | .ok asset =>
      let (spool, assets) := stageUploads kindCapabilities requestId suffix (position + 1) uploads
        (Keyed.set spool (requestId, asset.assetId) upload.data)
      (spool, assets.map (asset :: ·))

/-- The answer about an operation, with a receipt for each of the assets. -/
def stageAnswer (op : StagedOperation) (assets : List AssetRecord) : AttachmentAnswer :=
  match op.projection with
  | .error message => .raised message
  | .ok projection => .staged ⟨projection, assets.map op.receipt⟩

/-- A stage call. -/
structure StageRequest where
  authorization : AuthorizationBinding
  requestId : String
  kindCapabilities : AttachmentKind → Option AttachmentCapability
  uploads : List StagedUpload
  /-- the random part of an asset's identity, by its position -/
  suffix : Nat → String
  now : Nat

/-- `stage`, on the swept channel. -/
def stage (c : AttachmentChannel) (r : StageRequest) : AttachmentChannel × AttachmentAnswer :=
  let fingerprint := authority.operationFingerprint
    (.stage r.authorization r.requestId (r.uploads.map (uploadIdentity authority)))
  match c.retained r.requestId with
  | some (_, op) =>
    if op.fingerprint ≠ fingerprint then
      (c, .raised ("attachment request id " ++ pyRepr r.requestId ++
        " already belongs to its first content"))
    else (c, stageAnswer op op.assets)
  | none =>
    match c.makeRoom r.requestId with
    | .error message => (c, .raised message)
    | .ok c =>
      match stageUploads authority r.kindCapabilities r.requestId r.suffix 1 r.uploads c.spool with
      -- the bytes of the uploads before the one that failed stay
      | (spool, .error message) => ({ c with spool := spool }, .raised message)
      | (spool, .ok assets) =>
        let op : StagedOperation :=
          { requestId := r.requestId
            fingerprint := fingerprint
            revision := 1
            phase := .staged
            outcome := .pending
            assets := assets
            expiresAt := r.now + stagedAssetTtlSeconds }
        ({ c with spool := spool }.add op, stageAnswer op assets)

/-! ## Submitting -/

/-- An asset block names its staged receipt exactly. -/
def AssetSubmitBlock.matchesReceipt (block : AssetSubmitBlock) (record : AssetRecord) : Bool :=
  block.kind = record.kind && block.name = record.name && block.mimeType = record.mimeType &&
    block.sha256 = record.sha256 && block.alt = record.alt &&
    block.altProvenance = record.altProvenance

/-- The asset a block names, not used up yet. -/
def consumeBlock (op : Option StagedOperation) (block : AssetSubmitBlock) :
    Except String AssetRecord :=
  match op with
  | none => .error "asset-ref submit requires its staged attachment operation"
  | some op =>
    match op.find block.assetId with
    | none => .error ("staged asset " ++ pyRepr block.assetId ++ " is not retained")
    | some record =>
      if record.consumed then
        .error ("staged asset " ++ pyRepr block.assetId ++ " was already consumed")
      else if block.matchesReceipt record = false then
        .error "asset-ref block does not match its staged receipt"
      else .ok record

/-- The texts of the blocks, and the records that they name. -/
def composeBlocks (op : Option StagedOperation) :
    List ComposerSubmitBlock → Except String (List String × List AssetRecord)
  | [] => .ok ([], [])
  | .text text :: blocks =>
    (composeBlocks op blocks).map fun (texts, records) => (text :: texts, records)
  | .assetRef block :: blocks =>
    match consumeBlock op block with
    | .error message => .error message
    | .ok record => (composeBlocks op blocks).map fun (texts, records) => (texts, record :: records)

/-- `_compose`. The phase of the operation counts only where no asset is named. -/
def compose (op : Option StagedOperation) (body : ConversationSubmitRequest) :
    Except String (String × List AssetRecord) :=
  match composeBlocks op body.content with
  | .error message => .error message
  | .ok (texts, records) =>
    let text := "\n\n".intercalate (texts.filter (· ≠ ""))
    if text = "" then .error "submit requires non-empty text content"
    else if (op.any fun op => op.phase ≠ .staged) ∧ records = [] then
      .error "the staged request already left the staging phase"
    else .ok (text, records)

/-- The asset as a submission has it. -/
def AssetRecord.reference (record : AssetRecord) : AssetReference where
  assetId := record.assetId
  mimeType := record.mimeType
  byteSize := record.sizeBytes
  sha256 := record.sha256

/-- The message of a request id used twice. -/
def submitConflict (requestId : String) : String :=
  "submit request id " ++ pyRepr requestId ++ " already belongs to its first content"

/-- The operation was submitted with other content. -/
def stagedSubmitConflict (op : Option StagedOperation) (fingerprint : String) : Bool :=
  op.any fun op => op.submitFingerprint.any (· ≠ fingerprint)

/-- A submit on the swept channel, up to the control plane: the answer to it, or what
is sent. -/
def prepareSubmit (c : AttachmentChannel) (authorization : AuthorizationBinding)
    (body : ConversationSubmitRequest) : Except AttachmentAnswer Submitting :=
  let fingerprint := authority.operationFingerprint (.submit authorization body)
  match c.submits.lookup body.requestId with
  | some (first, answer) =>
    if first ≠ fingerprint then .error (.raised (submitConflict body.requestId))
    else .error (.submitted answer)
  | none =>
    let held := c.retained body.requestId
    match compose (held.map Prod.snd) body with
    | .error message => .error (.raised message)
    | .ok (text, records) =>
      if stagedSubmitConflict (held.map Prod.snd) fingerprint then
        .error (.raised (submitConflict body.requestId))
      else .ok
        { authorization := authorization
          body := body
          text := text
          operation := held.map Prod.fst
          records := records.map AssetRecord.reference
          fingerprint := fingerprint }

/-- Where a receipt leaves an operation. -/
def admitted (acceptance : AcceptanceState) (op : StagedOperation) : StagedOperation :=
  match acceptance with
  | .rejected | .unsupported => op.enter .failed .rejected
  | .unknown => op.enter .unknown .unknown
  | .queued => op.enter .queued .pending
  | .immediate => op.enter .dispatching .pending

/-- The channel once a receipt is there. -/
def AttachmentChannel.admitReceipt (c : AttachmentChannel) (call : Submitting)
    (acceptance : AcceptanceState) : AttachmentChannel :=
  match call.operation with
  | none => c
  | some i => c.update i fun op =>
    admitted acceptance
      (if isTerminalSubmitAcceptance acceptance then op else op.consume call.assetIds)

/-- `_admit`: the answer, where the operation's own model takes it. -/
def admitAnswer (c : AttachmentChannel) (call : Submitting) (receipt : SubmissionReceipt) :
    Except String SubmitAnswer := do
  let attachment ← match call.operation.bind (c.operations[·]?) with
    | none => pure none
    | some op => some <$> op.projection
  return {
    requestId := call.body.requestId
    acceptance := receipt.acceptance
    submittedAt := receipt.submittedAt
    bridgeEpoch := textOr receipt.bridgeEpoch authority.bridgeEpoch
    operationRef := none
    attachment := attachment
    detail := receipt.detail }

/-- `_mint_queue_ref`, of the rows of the timeline. -/
def mintQueueRef (call : Submitting) (items : List OperationTimelineItem) : Option ControlRef :=
  (items.find? fun item => item.identity.kind = .prompt &&
    item.identity.operationId = call.body.requestId).map fun item =>
      mintOperationRef authority.toControlAuthority call.authorization item.identity

/-- The last entries of an ordered dictionary, so many at most. -/
def trim {ν : Type} (limit : Nat) (d : List (String × ν)) : List (String × ν) :=
  d.drop (d.length - limit)

/-- `_store_submit_artifacts`. -/
def AttachmentChannel.storeSubmitArtifacts (c : AttachmentChannel) (call : Minting)
    (answer : SubmitAnswer) : AttachmentChannel :=
  let requestId := call.body.requestId
  let submits := trim maxSubmitsPerChannel (Keyed.moveToEnd
    (Keyed.set c.submits requestId (call.fingerprint, answer)) requestId)
  if isTerminalSubmitAcceptance call.receipt.acceptance then { c with submits := submits }
  else
    { c with
      submits := submits
      journal := trim maxJournalEntriesPerChannel (Keyed.moveToEnd
        (Keyed.set c.journal requestId
          { text := call.text
            contentDigest := authority.payloadDigest call.text call.records
            draftRevision := some call.body.draftRevision }) requestId) }

/-- The operation behind its receipt. -/
def submitted (call : Minting) (operationRef : Option ControlRef) (op : StagedOperation) :
    StagedOperation :=
  { op with
    submitFingerprint := some call.fingerprint
    submitReceipt := some call.receipt
    operationRef := operationRef
    revision := op.revision + 1 }

/-- The last section of `submit`. -/
def AttachmentChannel.storeSubmit (c : AttachmentChannel) (call : Minting)
    (operationRef : Option ControlRef) : AttachmentChannel × SubmitAnswer :=
  let answer := { call.answer with operationRef := operationRef }
  let c := match call.operation with
    | none => c
    | some i => c.update i (submitted call operationRef)
  (c.storeSubmitArtifacts authority call answer, answer)

/-! ## Reconciling -/

/-- The row states that are still live. -/
def liveTimelineStates : List SubmissionLifecycleState := [.queued, .dispatching, .unknown]

/-- `_timeline_transition`. -/
def timelineTransition (phase : AttachmentPhase) (row : Option SubmissionLifecycleState) :
    Option (AttachmentPhase × AttachmentOutcome) :=
  let absent : Option (AttachmentPhase × AttachmentOutcome) :=
    if phase ∈ [.queued, .dispatching, .accepted] then some (.accepted, .accepted) else none
  match row with
  | none => absent
  | some state =>
    if state ∈ liveTimelineStates then
      if state = .dispatching ∧ phase = .queued then some (.dispatching, .pending) else none
    else if state = .withdrawn then none
    else if state = .rejected ∨ state = .unsupported then some (.failed, .rejected)
    else absent

/-- `_advance_from_timeline`, of the rows of the timeline. -/
def AttachmentChannel.advance (c : AttachmentChannel) (i : Nat) (op : StagedOperation)
    (items : List OperationTimelineItem) : AttachmentChannel :=
  let row := items.find? fun item => item.identity.kind = .prompt &&
    item.identity.operationId = op.requestId
  match timelineTransition op.phase (row.map (·.state)) with
  | none => c
  | some (phase, outcome) =>
    let advance (op : StagedOperation) := (op.enter phase outcome).advanced
    if phase = .accepted then c.close i op advance else c.update i advance

/-- The answer that shows an operation. -/
def projected (op : Option StagedOperation) : AttachmentAnswer :=
  match op.map StagedOperation.projection with
  | some (.ok projection) => .operation projection
  | some (.error message) => .raised message
  | none => .raised "the attachment request is not retained"

/-! ## Rebinding -/

/-- A rebind call. -/
structure RebindRequest where
  authorization : AuthorizationBinding
  recoveryAssetRef : Token
  requestId : String
  suffix : String
  now : Nat

/-- `verify_recoverable_bytes`. -/
def verifyRecoverableBytes (bytes : Option (List UInt8)) (asset : AssetRecord) :
    Except String (List UInt8) :=
  match bytes with
  | none => .error "asset is not readable inside the session asset spool"
  | some bytes =>
    if authority.sha256 bytes ≠ asset.sha256 ∨ bytes.length ≠ asset.sizeBytes then
      .error "recoverable staged bytes failed digest verification"
    else .ok bytes

/-- The operation an asset is rebound to. -/
def reboundOperation (r : RebindRequest) (source : StagedOperation) (asset : AssetRecord) :
    StagedOperation where
  requestId := r.requestId
  fingerprint := authority.operationFingerprint (.rebound r.authorization r.requestId
    (uploadIdentityFromRecord asset) source.requestId)
  revision := 0
  phase := .staged
  outcome := .pending
  assets := []
  expiresAt := r.now + stagedAssetTtlSeconds

/-- `_rebind_target`: the operation to rebind into, with its place. -/
def rebindTarget (c : AttachmentChannel) (r : RebindRequest) (source : StagedOperation)
    (asset : AssetRecord) : Except String (AttachmentChannel × Nat × StagedOperation) :=
  match c.retained r.requestId with
  | some (i, target) =>
    if target.phase ≠ .staged then
      .error "the rebind target request already left staging"
    else .ok (c, i, target)
  | none =>
    (c.makeRoom r.requestId).map fun c =>
      let target := reboundOperation authority r source asset
      (c.add target, c.operations.length, target)

/-- The asset under its new identity. -/
def exchangedRecord (asset : AssetRecord) (assetId : String) : AssetRecord :=
  { asset with assetId := assetId, consumed := false }

/-- The source of an exchange: its asset is used up, and what it went to is kept. -/
def exchangedFrom (ref : ControlRef) (assetId : String) (requestId newAssetId : String)
    (op : StagedOperation) : StagedOperation :=
  { op.consume [assetId] with
    rebound := Keyed.set op.rebound ref (requestId, newAssetId)
    revision := op.revision + 1 }

/-- One asset more in an operation. -/
def exchangedInto (record : AssetRecord) (op : StagedOperation) : StagedOperation :=
  { op with assets := op.assets ++ [record], revision := op.revision + 1 }

/-- The exchange itself: the bytes move to the path of the new record. -/
def AttachmentChannel.exchange (c : AttachmentChannel) (ref : ControlRef) (i j : Nat)
    (source : StagedOperation) (asset : AssetRecord) (requestId newAssetId : String)
    (bytes : List UInt8) : AttachmentChannel :=
  let moved := { c with
    spool := Keyed.set (Keyed.erase c.spool (source.path asset.assetId)) (requestId, newAssetId)
      bytes }
  (moved.update i (exchangedFrom ref asset.assetId requestId newAssetId)).update j
    (exchangedInto (exchangedRecord asset newAssetId))

/-- `_rebind_replay`. -/
def rebindReplay (c : AttachmentChannel) (ref : ControlRef) (requestId : String)
    (rebound : String × String) : Except String (StagedOperation × AssetRecord × Exchange) :=
  if rebound.1 ≠ requestId then .error "the recovery asset was already exchanged"
  else
    match c.retained requestId with
    | none => .error "the rebind target request is not retained"
    | some (_, target) =>
      match target.find rebound.2 with
      | none => .error "the rebound asset is not retained"
      | some replay => .ok (target, replay, ⟨ref, requestId, rebound.2⟩)

/-- `rebind`, on the swept channel, for the reference that its token carries. -/
def rebind (c : AttachmentChannel) (r : RebindRequest) (ref : ControlRef) (assetId : String) :
    AttachmentChannel × AttachmentAnswer × Option Exchange :=
  match c.retained ref.target.identity.operationId with
  | none => (c, .raised "the recoverable attachment operation is not retained", none)
  | some (i, source) =>
    if source.phase ≠ .recoverable then
      (c, .raised "the recoverable attachment operation is not recoverable", none)
    else
      match source.find assetId with
      | none => (c, .raised "the recoverable asset is not retained", none)
      | some asset =>
        match source.rebound.lookup ref with
        -- this reference was exchanged before: its answer again, or a conflict
        | some rebound =>
          match rebindReplay c ref r.requestId rebound with
          | .error message => (c, .raised message, none)
          | .ok (target, replay, exchange) => (c, stageAnswer target [replay], some exchange)
        | none =>
          if asset.consumed then
            (c, .raised "the recovery asset was already exchanged", none)
          else
            match verifyRecoverableBytes authority (c.spool.lookup (source.path assetId)) asset with
            | .error message => (c, .raised message, none)
            | .ok bytes =>
              match rebindTarget authority c r source asset with
              | .error message => (c, .raised message, none)
              | .ok (c, j, target) =>
                let newId := assetIdOf (target.assets.length + 1) r.suffix
                let record := exchangedRecord asset newId
                (c.exchange ref i j source asset r.requestId newId bytes,
                  stageAnswer (exchangedInto record target) [record],
                  some ⟨ref, r.requestId, newId⟩)

/-! ## Withdrawals -/

/-- The operation of a withdrawn submission. -/
def recovered (recoveryExpiresAt : Nat) (op : StagedOperation) : StagedOperation :=
  { op.enter .recoverable .withdrawn with
    recoveryExpiresAt := some recoveryExpiresAt
    revision := op.revision + 1
    assets := op.assets.map fun asset => { asset with consumed := false } }

/-- `mark_recoverable`. -/
def AttachmentChannel.markRecoverable (c : AttachmentChannel) (requestId : String)
    (recoveryExpiresAt : Nat) : AttachmentChannel :=
  match c.retained requestId with
  | none => c
  | some (i, op) =>
    if op.phase ∈ [.staged, .queued, .dispatching, .unknown] then
      c.update i (recovered recoveryExpiresAt)
    else c

/-- The operation of a disposed recovery. -/
def disposed (op : StagedOperation) : StagedOperation :=
  { op.enter .expired .expired with recoveryExpiresAt := none, revision := op.revision + 1 }

/-- `delete_recoverable`. -/
def AttachmentChannel.deleteRecoverable (c : AttachmentChannel) (requestId : String) :
    AttachmentChannel :=
  match c.retained requestId with
  | none => c
  | some (i, op) => if op.phase ≠ .recoverable then c else c.close i op disposed

/-! ## The system -/

/-- No asset of the channel has this identity. -/
def AttachmentChannel.fresh (c : AttachmentChannel) (assetId : String) : Bool :=
  c.operations.all fun op => op.assets.all fun asset => asset.assetId ≠ assetId

/-- The identities a stage call gives. -/
def StageRequest.assetIds (r : StageRequest) : List String :=
  (List.range' 1 r.uploads.length).map fun position => assetIdOf position (r.suffix position)

/-- The identity that a rebind would give its asset. -/
def AttachmentChannel.nextAssetId (c : AttachmentChannel) (r : RebindRequest) : String :=
  assetIdOf (((c.retained r.requestId).map fun e => e.2.assets.length).getD 0 + 1) r.suffix

/-- One section of a call. -/
inductive AttachmentMove where
  | stage (request : StageRequest)
  | submit (authorization : AuthorizationBinding) (body : ConversationSubmitRequest) (now : Nat)
  /-- the control plane comes back to a submit -/
  | receipt (number : Nat) (receipt : Except String SubmissionReceipt)
  /-- the timeline comes back to a submit -/
  | queueRef (number : Nat) (items : Except String (List OperationTimelineItem))
  | status (requestId : String) (reconcile : Bool) (now : Nat)
  /-- the timeline comes back to a reconcile -/
  | timeline (k : Nat) (items : Except String (List OperationTimelineItem))
  | rebind (request : RebindRequest)
  | markRecoverable (requestId : String) (recoveryExpiresAt : Nat)
  | deleteRecoverable (requestId : String)

namespace AttachmentSystem

variable (s : AttachmentSystem)

/-- A caller is answered. -/
def answer (channel : AttachmentChannel) (answer : AttachmentAnswer) : AttachmentSystem :=
  { s with channel := channel, answered := some answer }

/-- `stage`, in one section. -/
def stageStep (r : StageRequest) : Option AttachmentSystem :=
  match requireSafeComponent r.requestId with
  | .error message => some (s.answer s.channel (.raised message))
  | .ok _ =>
    if ¬(1 ≤ r.uploads.length ∧ r.uploads.length ≤ 4) then
      some (s.answer s.channel (.raised "attachment staging requires 1..4 assets per request"))
    else
      let c := s.channel.sweepExpired r.now
      if r.assetIds.Nodup ∧ ∀ assetId ∈ r.assetIds, c.fresh assetId then
        let (c, answer) := stage authority c r
        some (s.answer c answer)
      else none

/-- `submit`, up to the control plane. -/
def submitStep (authorization : AuthorizationBinding) (body : ConversationSubmitRequest)
    (now : Nat) : AttachmentSystem :=
  match requireSafeComponent body.requestId with
  | .error message => s.answer s.channel (.raised message)
  | .ok _ =>
    let c := s.channel.sweepExpired now
    match prepareSubmit authority c authorization body with
    | .error (.submitted answer) =>
      s.answer { c with submits := Keyed.moveToEnd c.submits body.requestId } (.submitted answer)
    | .error answer => s.answer c answer
    | .ok call =>
      { s with
        channel := c
        submitting := s.submitting ++ [(s.sent.length, call)]
        answered := none
        sent := s.sent ++ [
          { requestId := body.requestId
            assets := call.assetIds
            phase := (c.retained body.requestId).map fun e => e.2.phase }] }

/-- How a submit ended, on record. -/
def ended (number : Nat) (outcome : SentOutcome) : AttachmentSystem :=
  { s with
    submitting := Keyed.erase s.submitting number
    sent := s.sent.modify number fun sent => { sent with outcome := outcome } }

/-- `submit`, from its receipt up to the timeline. -/
def receiptStep (number : Nat) (receipt : Except String SubmissionReceipt) (call : Submitting) :
    AttachmentSystem :=
  match receipt with
  | .error message => (s.ended number .raised).answer s.channel (.raised message)
  | .ok receipt =>
    let c := s.channel.admitReceipt call receipt.acceptance
    let s := s.ended number (.answered receipt.acceptance)
    match admitAnswer authority c call receipt with
    | .error message => s.answer c (.raised message)
    | .ok answer =>
      { s with
        channel := c
        minting := s.minting ++ [(number, { call with receipt := receipt, answer := answer })]
        answered := none }

/-- `submit`, from the timeline on. -/
def queueRefStep (number : Nat) (items : Except String (List OperationTimelineItem))
    (call : Minting) : AttachmentSystem :=
  let s := { s with minting := Keyed.erase s.minting number }
  match items with
  | .error message => s.answer s.channel (.raised message)
  | .ok items =>
    let (c, answer) := s.channel.storeSubmit authority call
      (mintQueueRef authority call.toSubmitting items)
    s.answer c (.submitted answer)

/-- `status`, up to the timeline. -/
def statusStep (requestId : String) (reconcile : Bool) (now : Nat) : AttachmentSystem :=
  let c := s.channel.sweepExpired now
  match c.retained requestId with
  | none => s.answer c (.raised ("attachment request " ++ pyRepr requestId ++
      " is not retained by this control authority"))
  | some (i, op) =>
    let c := { c with attachments := Keyed.moveToEnd c.attachments requestId }
    if reconcile = true ∧ op.phase ∉ [.accepted, .expired, .recoverable] then
      { s with channel := c, reconciling := s.reconciling ++ [i], answered := none }
    else s.answer c (projected (some op))

/-- `status`, from the timeline on. -/
def timelineStep (k i : Nat) (items : Except String (List OperationTimelineItem))
    (op : StagedOperation) : AttachmentSystem :=
  let s := { s with reconciling := s.reconciling.eraseIdx k }
  match items with
  | .error message => s.answer s.channel (.raised message)
  | .ok items =>
    let c := s.channel.advance i op items
    s.answer c (projected c.operations[i]?)

/-- `rebind`, in one section. -/
def rebindStep (r : RebindRequest) : Option AttachmentSystem :=
  match requireSafeComponent r.requestId with
  | .error message => some (s.answer s.channel (.raised message))
  | .ok _ =>
    match decodeRef r.recoveryAssetRef .recoveryAssetRef (authority.binding r.authorization) with
    | .error message => some (s.answer s.channel (.raised message))
    | .ok target =>
      match target.withdrawRequestId, target.assetId with
      | some _, some assetId =>
        let c := s.channel.sweepExpired r.now
        if c.fresh (c.nextAssetId r) then
          r.recoveryAssetRef.map fun ref =>
            let (c, answer, exchange) := rebind authority c r ref assetId
            { s.answer c answer with exchanges := s.exchanges ++ exchange.toList }
        else none
      | _, _ => some (s.answer s.channel (.raised "recovery asset reference is incomplete"))

/-- One section; none where no call is at that point. -/
def step : AttachmentMove → Option AttachmentSystem
  | .stage request => s.stageStep authority request
  | .submit authorization body now => some (s.submitStep authority authorization body now)
  | .receipt number receipt =>
    (s.submitting.lookup number).map (s.receiptStep authority number receipt)
  | .queueRef number items =>
    (s.minting.lookup number).map (s.queueRefStep authority number items)
  | .status requestId reconcile now => some (s.statusStep requestId reconcile now)
  | .timeline k items =>
    s.reconciling[k]?.bind fun i =>
      (s.channel.operations[i]?).map (s.timelineStep k i items)
  | .rebind request => s.rebindStep authority request
  | .markRecoverable requestId recoveryExpiresAt =>
    some { s with
      channel := s.channel.markRecoverable requestId recoveryExpiresAt, answered := none }
  | .deleteRecoverable requestId =>
    some { s with channel := s.channel.deleteRecoverable requestId, answered := none }

end AttachmentSystem

end calls

end AgentsRemember.Attachments
