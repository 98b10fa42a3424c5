import AgentsRemember.Lifecycle.Recovery

/-!
# Lifecycle — Transition

What the store asks of a write: a record and the one that is to replace it are
compared part by part. Each validator guards the cells of one part.
-/

namespace AgentsRemember.Lifecycle

open Checks

/-! ## The meaningful state -/

/-- The cells a change of which advances the wait cursor. -/
structure MeaningfulState where
  generation : Nat
  generationDisposition : GenerationDisposition
  status : LifecycleOperationStatus
  phase : LifecycleOperationPhase
  attempt : Nat
  approvalClaimed : Bool
  irreversibleBoundaryEntered : Bool
  cancelRequested : Bool
  cancellationEvidence : Option LifecycleCancellationEvidence
  workerTermination : Option WorkerTerminationEvidence
  terminationReturnStatus : Option TerminationReturnStatus
  terminationReturnPhase : Option LifecycleOperationPhase
  mutationEvidence : Legs GitMutationEvidence
  recoveryCommits : Option LifecycleOperationRecoveryCommits
  closeoutFinalizedContractSha256 : Option String
  qualityCertification : Option IntegrationQualityCertification
  certification : Option OperationCertificationState
  preparation : Option OperationPreparationState
  preparedCodeRetention : Option PreparedCodeRetention
  integrationCertification : Option IntegrationCertificationSelection
  integrationPublication : Option IntegrationPublicationIntent
  organizationalRepair : Option OrganizationalCompletionRepairEvidence
  doorPublication : Option DoorPublicationEvidence
  legacyMigration : Option LegacyCloseoutMigrationProof
  result : Option OperationResult
  failure : Option String
deriving DecidableEq

/-- The cells whose change counts as meaningful. -/
def meaningfulState (r : LifecycleOperationRecord) : MeaningfulState :=
  ⟨r.generation, r.generationDisposition, r.status, r.phase, r.attempt, r.approvalClaimed,
    r.irreversibleBoundaryEntered, r.cancelRequested, r.cancellationEvidence,
    r.workerTermination, r.terminationReturnStatus, r.terminationReturnPhase,
    r.mutationEvidence, r.recoveryCommits, r.closeoutFinalizedContractSha256,
    r.qualityCertification, r.certification, r.preparation, r.preparedCodeRetention,
    r.integrationCertification, r.integrationPublication, r.organizationalRepair,
    r.doorPublication, r.legacyMigration, r.result, r.failure⟩

/-- One of those cells changes. -/
def meaningfulStateChanged (current updated : LifecycleOperationRecord) : Bool :=
  meaningfulState current ≠ meaningfulState updated

/-! ## Certification and preparation -/

/-- A terminal list may grow, or replace its last entry while that has no
certificate; the replaced entry goes to the history. -/
def validateTerminalTransition (replaced lost : String)
    (before after beforeHistory afterHistory : List SelectedGateTerminal) : Verdict :=
  if after.take before.length = before then refuseIf (afterHistory ≠ beforeHistory) lost
  else inOrder [
    match before.getLast? with
    | none => .error replaced
    | some last =>
      refuseIf (last.certificate ≠ none ∨ after.length < before.length ∨
          after.take (before.length - 1) ≠ before.dropLast ∨
          (after[before.length - 1]?).map (·.gate) ≠ some last.gate) replaced,
    refuseIf (afterHistory ≠ beforeHistory ++ before.getLast?.toList) lost]

/-- How the certification of a closeout may change. -/
def validateCertificationTransition (before after : Option OperationCertificationState)
    (operationKey : String) (generation : Nat) (canSelect : Bool) : Verdict :=
  if before = after then .ok ()
  else
    match after with
    | none => .error "certification selection requires the live noncancelled operation"
    | some after => inOrder [
        refuseIf (canSelect = false)
          "certification selection requires the live noncancelled operation",
        refuseIf (after.operationKey ≠ operationKey ∨ after.generation ≠ generation)
          "certification selection belongs to another operation generation",
        match before with
        | none => .ok ()
        | some before => inOrder [
            refuseIf (before.frozenRun ≠ after.frozenRun)
              "selected certification authority cannot change frozenRun",
            refuseIf (before.candidateAuthorities ≠ after.candidateAuthorities)
              "selected certification authority cannot change candidateAuthorities",
            refuseIf (before.lifecycleAdmission ≠ after.lifecycleAdmission)
              "selected certification authority cannot change lifecycleAdmission",
            refuseIf (before.priorRedDisposition ≠ after.priorRedDisposition)
              "selected certification authority cannot change priorRedDisposition",
            refuseIf (before.predecessor ≠ after.predecessor)
              "selected certification authority cannot change predecessor",
            refuseIf (before.inputTerminals ≠ after.inputTerminals)
              "selected certification authority cannot change inputTerminals",
            refuseIf (after.recoveryDecisions.take before.recoveryDecisions.length ≠
                before.recoveryDecisions)
              "selected recovery decision history cannot be replaced",
            validateTerminalTransition "selected terminal evidence cannot be replaced"
              "uncertified terminal replacement must retain the exact original history"
              before.terminals after.terminals before.terminalHistory after.terminalHistory]]

/-- How the certification of an integration may change. -/
def validateIntegrationCertificationTransition
    (before after : Option IntegrationCertificationSelection) (operationKey : String)
    (generation : Nat) (canSelect : Bool) : Verdict :=
  if before = after then .ok ()
  else
    match after with
    | none => .error "integration certification selection requires its live operation owner"
    | some after => inOrder [
        refuseIf (canSelect = false)
          "integration certification selection requires its live operation owner",
        refuseIf (after.operationKey ≠ operationKey ∨ after.generation ≠ generation)
          "integration certification selection belongs to another operation",
        match before with
        | none => .ok ()
        | some before => inOrder [
            refuseIf ({ before with terminals := [], terminalHistory := [] } ≠
                { after with terminals := [], terminalHistory := [] })
              "integration frozen authority cannot be replaced",
            validateTerminalTransition
              "integration terminal references can only append an exact suffix"
              "integration interrupted replacement must preserve its original terminal"
              before.terminals after.terminals before.terminalHistory after.terminalHistory]]

/-- A worker's process id, lease and process fingerprint. -/
abbrev WorkerBinding := Option Nat × Option String × Option String

/-- The worker bound to a record. -/
def LifecycleOperationRecord.binding (record : LifecycleOperationRecord) : WorkerBinding :=
  (record.workerPid, record.workerLease, record.workerProcessFingerprint)

/-- The worker a termination names. -/
def WorkerTerminationEvidence.binding (termination : WorkerTerminationEvidence) :
    WorkerBinding :=
  (some termination.pid, some termination.lease, some termination.processFingerprint)

/-- The worker that started a command. -/
def PreparationCommand.owner (command : PreparationCommand) : WorkerBinding :=
  (some command.workerPid, some command.workerLease, some command.workerProcessFingerprint)

/-- Only the last command may change, from no terminal to one. -/
def validateCommandObservation (before after : SelectedPreparation) (canStart : Bool)
    (worker exitedWorker : WorkerBinding) : Verdict :=
  match before.commands.getLast?, after.commands.getLast? with
  | some original, some observed => inOrder [
      refuseIf (after.commands.length ≠ before.commands.length)
        "private commands cannot be removed or restarted",
      refuseIf (after.commands.dropLast ≠ before.commands.dropLast ∨
          original.terminal ≠ none ∨ observed.terminal = none ∨
          { original with terminal := none } ≠ { observed with terminal := none })
        "private command observations are append-only and immutable",
      refuseIf (canStart = false ∧ original.owner ≠ worker ∧ original.owner ≠ exitedWorker)
        "late private readback requires its original worker or proven exit"]
  | _, _ => .error "private commands cannot be removed or restarted"

/-- How one preparation leg may change. -/
def validateLegTransition (before after : SelectedPreparation) (canStart : Bool)
    (worker exitedWorker : WorkerBinding) : Verdict :=
  inOrder [
    refuseIf (before.leg ≠ after.leg ∨ before.intent ≠ after.intent ∨ before.output ≠ none)
      "selected private intent and prepared output are immutable",
    if after.output ≠ none then
      refuseIf (canStart = false ∨ after.commands ≠ before.commands)
        "prepared output selection requires a separate current-owner CAS"
    else if after.commands.length = before.commands.length + 1 then
      match after.commands.getLast? with
      | none => .error "private command start requires its exact current worker owner"
      | some command =>
        refuseIf (canStart = false ∨ after.commands.dropLast ≠ before.commands ∨
            command.terminal ≠ none ∨ command.owner ≠ worker)
          "private command start requires its exact current worker owner"
    else validateCommandObservation before after canStart worker exitedWorker]

/-- How the preparation may change. -/
def validatePreparationTransition (before after : Option OperationPreparationState)
    (canStart : Bool) (worker exitedWorker : WorkerBinding) : Verdict :=
  if before = after then .ok ()
  else
    match before, after with
    | _, none => .error "private preparation selection cannot be cleared"
    | none, some after =>
      refuseIf (canStart = false ∨ after.legs.length ≠ 1 ∨
          ∃ leg ∈ after.legs.head?.toList, leg.commands ≠ [] ∨ leg.output ≠ none)
        "private preparation begins with a separately selected intent"
    | some before, some after => inOrder [
        refuseIf (before.operationKey ≠ after.operationKey ∨
            before.generation ≠ after.generation)
          "private preparation owner is immutable",
        -- one leg more: the next is selected, and those before it stay
        if after.legs.length = before.legs.length + 1 then
          refuseIf (canStart = false ∨ after.legs.dropLast ≠ before.legs ∨
              ∃ leg ∈ after.legs.getLast?.toList, leg.commands ≠ [] ∨ leg.output ≠ none)
            "new private leg requires a separately selected intent"
        else inOrder [
          refuseIf (after.legs.length ≠ before.legs.length ∨
              after.legs.dropLast ≠ before.legs.dropLast)
            "selected private preparation prefix is immutable",
          match before.legs.getLast?, after.legs.getLast? with
          | some before, some after =>
            validateLegTransition before after canStart worker exitedWorker
          | _, _ => .error "selected private preparation prefix is immutable"]]

section transition
variable (current updated : LifecycleOperationRecord)

/-- How the preparation may change within a record. -/
def validatePrivatePreparationTransition : Verdict :=
  inOrder [
    refuseIf (current.preparation ≠ none ∧
        (updated.generationDisposition ∈ [.retired, .superseded] ∨
          updated.successorFingerprint ≠ current.successorFingerprint))
      "private preparation requires an explicit proved retention disposition",
    refuseIf (updated.preparation ≠ none ∧ updated.status = .completed ∧
        updated.closeoutFinalizedContractSha256 = none)
      "private preparation is unfinished work, not closeout completion",
    validatePreparationTransition current.preparation updated.preparation
      (current.status = .running && updated.status = .running && !current.cancelRequested &&
        !updated.cancelRequested && current.generationDisposition = .active &&
        current.binding = updated.binding && current.workerPid.isSome &&
        current.workerLease.isSome && current.workerProcessFingerprint.isSome)
      current.binding
      (match current.workerTermination with
        | some termination =>
          if termination.state = .exited then termination.binding else (none, none, none)
        | none => (none, none, none)),
    refuseIf (current.preparation ≠ updated.preparation ∧
        (current.mutationEvidence ≠ updated.mutationEvidence ∨
          current.mutationHistory ≠ updated.mutationHistory ∨
          current.recoveryCommits ≠ updated.recoveryCommits ∨
          current.approvalClaimed ≠ updated.approvalClaimed ∨
          current.irreversibleBoundaryEntered ≠ updated.irreversibleBoundaryEntered ∨
          current.closeoutFinalizedContractSha256 ≠ updated.closeoutFinalizedContractSha256))
      "private preparation cannot publish mutation or approval evidence"]

/-! ## Recovery commits and publications -/

/-- Recorded commits stay. -/
def validateRecoveryCommitsTransition : Verdict :=
  match current.recoveryCommits with
  | none => .ok ()
  | some commits =>
    match updated.recoveryCommits with
    | none => .error "recorded lifecycle recovery commits cannot be cleared"
    | some after =>
      refuseIf (after.codeCommit ≠ commits.codeCommit ∨
          (commits.memoryContentCommit ≠ "" ∧
            after.memoryContentCommit ≠ commits.memoryContentCommit))
        "recorded lifecycle recovery commits can only fill empty cells"

/-- A recorded quality certification stays. -/
def validateQualityCertificationTransition : Verdict :=
  inOrder [
    refuseIf (current.qualityCertification ≠ none ∧
        updated.qualityCertification ≠ current.qualityCertification)
      "recorded integration quality certification is immutable",
    refuseIf (updated.qualityCertification ≠ none ∧ current.operationKind ≠ .integrate)
      "only integration operations may record quality certification"]

/-- The claim of an intent is proven, and nothing else of it changes. -/
def claimProof (before after : IntegrationPublicationIntent) : Bool :=
  before.claimState = .intent && after.claimState = .proven &&
    after.operationKey = before.operationKey && after.generation = before.generation &&
    after.others = before.others

/-- A publication intent stays, its claim aside. -/
def validateIntegrationPublicationTransition : Verdict :=
  inOrder [
    match current.integrationPublication, updated.integrationPublication with
    | none, _ => .ok ()
    | some _, none => .error "recorded integration publication intent is immutable"
    | some before, some after =>
      refuseIf (after ≠ before ∧ claimProof before after = false)
        "recorded integration publication intent is immutable",
    refuseIf (updated.integrationPublication ≠ none ∧ current.operationKind ≠ .integrate)
      "only integration operations may record publication intent"]

/-- Recorded repair evidence stays. -/
def validateOrganizationalRepairTransition : Verdict :=
  refuseIf (current.organizationalRepair ≠ none ∧
      updated.organizationalRepair ≠ current.organizationalRepair)
    "recorded organizational repair evidence is immutable"

/-- Door publications are appended, and proven once. -/
def validateDoorPublicationTransition : Verdict :=
  inOrder [
    refuseIf (updated.doorPublicationHistory.take current.doorPublicationHistory.length ≠
        current.doorPublicationHistory)
      "door publication history is append-only",
    match current.doorPublication with
    | none => .ok ()
    | some before =>
      match updated.doorPublication with
      | none => .error "door publication evidence cannot be cleared"
      | some after =>
        -- a proven door that was archived makes room for the next generation's
        if before.state = .proven ∧ after.generation ≠ before.generation ∧
            updated.doorPublicationHistory = current.doorPublicationHistory ++ [before] then
          .ok ()
        else inOrder [
          refuseIf (before.state = .proven ∧ after ≠ before)
            "proven door publication evidence is immutable",
          refuseIf (before.state = .intent ∧ after.generation ≠ before.generation)
            "door publication intent identity is immutable"]]

/-- A migration proof stays. -/
def validateLegacyMigrationTransition : Verdict :=
  refuseIf (current.legacyMigration ≠ none ∧ updated.legacyMigration ≠ current.legacyMigration)
    "legacy migration proof is immutable"

/-- The finalized contract is recorded once. -/
def validateCloseoutFinalizationTransition : Verdict :=
  let before := current.closeoutFinalizedContractSha256
  let after := updated.closeoutFinalizedContractSha256
  inOrder [
    refuseIf (before ≠ none ∧ after ≠ before)
      "closeout finalized contract SHA-256 is immutable once recorded",
    refuseIf (before = none ∧ after ≠ none ∧ updated.phase ≠ .contractFinalization)
      "closeout finalized contract SHA-256 must be introduced at contract-finalization",
    requireCloseoutFinalizationEvidence updated]

/-! ## Mutation evidence -/

/-- The states a leg's evidence may move to. -/
def mutationAllowed : MutationEvidenceState → List MutationEvidenceState
  | .preMutation => [.preMutation, .mutationIntent]
  | .mutationIntent => [.mutationIntent, .reconciledUnchanged, .commitProven]
  | .reconciledUnchanged => [.reconciledUnchanged]
  | .commitProven => [.commitProven]

/-- What of a leg's evidence stays. -/
def validateMutationEvidenceIdentity (before after : GitMutationEvidence) (retryReset : Bool) :
    Verdict :=
  inOrder [
    refuseIf (after.leg ≠ before.leg ∨ after.repository ≠ before.repository)
      "closeout mutation evidence identity is immutable",
    refuseIf (before.acceptedBefore ≠ none ∧ after.acceptedBefore ≠ before.acceptedBefore)
      "closeout accepted Git prestate is immutable",
    refuseIf (retryReset = false ∧ before.before ≠ none ∧ after.before ≠ before.before)
      "closeout pre-command Git evidence is immutable"]

/-- A retry clears a reconciled attempt that the history keeps. -/
def retryReset (leg : CloseoutMutationLeg) (before after : GitMutationEvidence) : Bool :=
  before.state = .reconciledUnchanged && after.state = .preMutation &&
    updated.mutationHistory.get leg = some ((current.mutationHistory.get leg).getD [] ++ [before])

/-- How the evidence of a leg may change. -/
def validateLegEvidenceTransition (leg : CloseoutMutationLeg) (before after : GitMutationEvidence) :
    Verdict :=
  let reset := retryReset current updated leg before after
  inOrder [
    validateMutationEvidenceIdentity before after reset,
    if reset then .ok () else inOrder [
      refuseIf (after.state ∉ mutationAllowed before.state)
        ("invalid closeout mutation evidence transition " ++ before.state.text ++ " -> " ++
          after.state.text),
      refuseIf (before.observed ≠ none ∧ after.observed ≠ before.observed)
        "closeout observed Git evidence is immutable once recorded",
      refuseIf (before.expectedOutputTree ≠ none ∧
          after.expectedOutputTree ≠ before.expectedOutputTree)
        "closeout expected output tree is immutable once recorded"]]

/-- How the evidence of both legs may change. -/
def validateMutationEvidenceTransition : Verdict :=
  inOrder [
    inOrder (current.mutationEvidence.items.map fun cell =>
      match updated.mutationEvidence.get cell.1 with
      | none => .error ("KeyError: " ++ cell.1.text)
      | some after => validateLegEvidenceTransition current updated cell.1 cell.2 after),
    inOrder (current.mutationHistory.items.map fun cell =>
      refuseIf (((updated.mutationHistory.get cell.1).getD []).take cell.2.length ≠ cell.2)
        "closeout mutation-attempt history is append-only")]

/-! ## Worker -/

/-- The write moves an exit proof into the history. -/
def workerExitWasArchived : Bool :=
  match current.workerTermination with
  | none => false
  | some before => before.state = .exited && updated.workerTermination = none &&
      updated.workerTerminationHistory = current.workerTerminationHistory ++ [before]

/-- The states a termination may move to. -/
def terminationAllowed : WorkerTerminationState → List WorkerTerminationState
  | .requested => [.requested, .terminationRequired, .exited]
  | .terminationRequired => [.terminationRequired, .exited]
  | .exited => [.exited]

/-- How termination evidence may change. -/
def validateWorkerTerminationEvidence (before : WorkerTerminationEvidence)
    (after : Option WorkerTerminationEvidence) : Verdict :=
  match after with
  | none => .error "worker termination evidence is monotonic"
  | some after => inOrder [
      refuseIf (after.state ∉ terminationAllowed before.state)
        "worker termination evidence is monotonic",
      refuseIf (after.pid ≠ before.pid ∨ after.lease ≠ before.lease ∨
          after.processFingerprint ≠ before.processFingerprint ∨
          after.requestedAt ≠ before.requestedAt)
        "worker termination identity is immutable"]

/-- How the bound worker may change. -/
def validateWorkerAuthorityTransition : Verdict :=
  inOrder [
    refuseIf (current.workerLease ≠ none ∧ updated.workerLease ≠ current.workerLease ∧
        updated.workerLease ≠ none)
      "worker lease cannot be replaced before proven exit",
    refuseIf (current.workerPid ≠ none ∧ updated.workerPid = none ∧
        ¬∃ after ∈ updated.workerTermination, after.state = .exited)
      "worker authority cannot clear before proven exit"]

/-- How the worker part may change. -/
def validateWorkerTransition : Verdict :=
  inOrder [
    match current.workerTermination with
    | none => .ok ()
    | some before =>
      if workerExitWasArchived current updated then .ok ()
      else validateWorkerTerminationEvidence before updated.workerTermination,
    validateWorkerAuthorityTransition current updated,
    refuseIf (updated.workerTerminationHistory.take current.workerTerminationHistory.length ≠
        current.workerTerminationHistory)
      "worker termination history is append-only"]

/-! ## The shared envelope -/

/-- The cells that no write changes, with whether this one does. -/
def immutableCells : List (String × Bool) :=
  [("taskId", current.taskId ≠ updated.taskId),
    ("taskName", current.taskName ≠ updated.taskName),
    ("contractPath", current.contractPath ≠ updated.contractPath),
    ("operationKind", current.operationKind ≠ updated.operationKind),
    ("generation", current.generation ≠ updated.generation),
    ("predecessorFingerprint", current.predecessorFingerprint ≠ updated.predecessorFingerprint),
    ("candidateState", current.candidateState ≠ updated.candidateState),
    ("candidateTree", current.candidateTree ≠ updated.candidateTree),
    ("taskIntent", current.taskIntent ≠ updated.taskIntent),
    ("fingerprint", current.fingerprint ≠ updated.fingerprint),
    ("integrationAuthority", current.integrationAuthority ≠ updated.integrationAuthority),
    ("reportPath", current.reportPath ≠ updated.reportPath)]

/-- The validators of every write, in order. -/
def validateIdentityAndEvidenceTransition : Verdict :=
  inOrder [
    refuseIf (updated.recordRevision ≠ current.recordRevision + 1)
      "lifecycle operation record revision must advance exactly once",
    refuseIf (updated.meaningfulRevision ≠
        current.meaningfulRevision + (meaningfulStateChanged current updated).toNat)
      ("lifecycle operation meaningful revision must advance exactly on meaningful " ++
        "state change and never on heartbeat/log/history writes"),
    inOrder ((immutableCells current updated).map fun cell =>
      refuseIf (cell.2 = true) ("lifecycle operation transition cannot change " ++ cell.1)),
    refuseIf (updated.operationKey ≠ current.operationKey ∨ updated.input ≠ current.input)
      "lifecycle operation transition cannot change its durable input",
    refuseIf (current.approvalClaimed = true ∧ updated.approvalClaimed = false)
      "a claimed approval cannot become unclaimed",
    validateRecoveryCommitsTransition current updated,
    validateQualityCertificationTransition current updated,
    validatePrivatePreparationTransition current updated,
    validateIntegrationCertificationTransition current.integrationCertification
      updated.integrationCertification current.operationKey current.generation
      (current.operationKind = .integrate && current.status = .running &&
        !current.cancelRequested && !updated.cancelRequested),
    validateCertificationTransition current.certification updated.certification
      current.operationKey current.generation
      ((current.status = .queued || current.status = .running) && !current.cancelRequested &&
        !updated.cancelRequested),
    validateIntegrationPublicationTransition current updated,
    validateOrganizationalRepairTransition current updated,
    validateMutationEvidenceTransition current updated,
    validateWorkerTransition current updated,
    validateDoorPublicationTransition current updated,
    validateLegacyMigrationTransition current updated,
    refuseIf (current.cancellationEvidence ≠ none ∧
        updated.cancellationEvidence ≠ current.cancellationEvidence)
      "proven cancellation evidence is immutable",
    requireCloseoutRecoveryProjection updated,
    validateCloseoutFinalizationTransition current updated,
    refuseIf (current.irreversibleBoundaryEntered = true ∧
        updated.irreversibleBoundaryEntered = false)
      "an entered irreversible boundary cannot be cleared"]

end transition

end AgentsRemember.Lifecycle
