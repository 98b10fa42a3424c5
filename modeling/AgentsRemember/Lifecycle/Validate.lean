import AgentsRemember.Lifecycle.Record

/-!
# Lifecycle — Validate

What the record's own validator asks of a snapshot, part by part and in the
order of the source.
-/

namespace AgentsRemember.Lifecycle

open Checks

/-- The message of a refusal, if there is one. -/
abbrev Verdict := Except String Unit

/-! ## Certification, preparation and integration -/

/-- The certification belongs to this generation. -/
def validateCertificationOwner (selected : Option OperationCertificationState)
    (operationKind : LifecycleOperationKind) (operationKey : String) (generation : Nat) :
    Verdict :=
  match selected with
  | none => .ok ()
  | some selected =>
    refuseIf (operationKind ≠ .closeout ∨ selected.operationKey ≠ operationKey ∨
        selected.generation ≠ generation)
      "certification selection must name its exact closeout operation generation"

/-- The preparation belongs to this generation. -/
def validatePreparationOwner (selected : Option OperationPreparationState)
    (operationKind : LifecycleOperationKind) (operationKey : String) (generation : Nat)
    (hasCertification : Bool) : Verdict :=
  match selected with
  | none => .ok ()
  | some selected => inOrder [
      refuseIf (operationKind ≠ .closeout ∨ selected.operationKey ≠ operationKey ∨
          selected.generation ≠ generation)
        "private preparation must belong to this exact closeout generation",
      refuseIf (hasCertification = false)
        "private preparation requires the original selected certification"]

/-- Kept code goes with a preparation of this generation. -/
def validatePreparedCodeRetention (record : LifecycleOperationRecord) : Verdict :=
  match record.preparedCodeRetention with
  | none => .ok ()
  | some retained => inOrder [
      refuseIf (record.operationKind ≠ .closeout)
        "prepared code retention belongs only to closeout successors",
      refuseIf (retained.predecessorGeneration + 1 ≠ record.generation)
        "prepared code retention must name the immediately prior generation",
      refuseIf (record.predecessorFingerprint = "" ∨
          retained.predecessorFingerprint ≠ record.predecessorFingerprint)
        "prepared code retention must bind the archived predecessor",
      match record.preparation with
      | none => .error
          "prepared code retention requires the successor's selected preparation"
      | some selected => inOrder [
          refuseIf (selected.operationKey ≠ record.operationKey ∨
              selected.generation ≠ record.generation)
            "prepared code retention requires the successor's selected preparation",
          match selected.legs.head? with
          | none => .error "prepared code retention requires a code-first successor prefix"
          | some leg => inOrder [
              refuseIf (leg.leg ≠ .code)
                "prepared code retention requires a code-first successor prefix",
              refuseIf (leg.intent ≠ retained.successorIntent ∨
                  leg.output ≠ some retained.successorOutput)
                "prepared code retention does not bind the selected successor output"]]]

/-- The memory cap as an attestation writes it. -/
def memoryCapText (cap : Option Nat) : String :=
  match cap with
  | none => ""
  | some cap => toString cap

/-- The integration certification belongs to this generation. -/
def requireIntegrationCertificationAuthority (record : LifecycleOperationRecord) : Verdict :=
  inOrder [
    match record.integrationCertification with
    | none => .ok ()
    | some selected =>
      refuseIf (record.operationKind ≠ .integrate ∨
          selected.operationKey ≠ record.operationKey ∨ selected.generation ≠ record.generation)
        "integration certification must name its exact operation generation",
    match record.qualityCertification with
    | none => .ok ()
    | some quality =>
      match record.integrationCertification with
      | none => .error "completed integration quality requires journal-selected original references"
      | some selected => inOrder [
          refuseIf (quality.frozenRun ≠ selected.frozenRun ∨
              quality.terminals ≠ selected.terminals)
            "completed integration quality requires journal-selected original references",
          refuseIf (selected.completionFingerprint ≠ some quality.completionFingerprint ∨
              selected.diffBase ≠ quality.diffBase ∨
              memoryCapText selected.memoryCapBytes ≠ quality.memoryCapBytes)
            "selected completion fingerprint, comparison base and memory cap must match",
          refuseIf (record.integrationAuthority.map (·.codeCandidateCommit) ≠
              some quality.codeCommit)
            "selected completion code commit must match integration authority"]]

/-- The intent goes with the kind of the operation. -/
def requireTaskIntentState (record : LifecycleOperationRecord) : Verdict :=
  inOrder [
    refuseIf (record.operationKind = .integrate ∧ record.taskIntent ≠ none)
      "integrate operations do not carry leaf task intent",
    refuseIf (record.operationKind = .closeout ∧ record.taskIntent = none)
      "closeout operation requires a task-intent state",
    refuseIf (record.operationKind ≠ .integrate ∧
        ∃ publication ∈ record.doorPublication.toList ++ record.doorPublicationHistory,
          some publication.generation.taskIntent ≠ record.taskIntent)
      "operation and door publication must bind the same task intent"]

/-! ## Organizational repair and integration publication -/

/-- The state of a failed organizational gate. -/
def organizationalGateFailed : Scalar := .str "organizational-completion-gate-failed"

/-- The handoff that a repair's result must name, cell by cell. -/
def cancellationHandoff (expectedPath : String) (expectedGeneration : Nat) :
    List (List String × Scalar) :=
  [(["developerDecisionRequired"], .bool true), (["safeToReplace"], .bool false),
    (["superRefsMoved"], .bool false), (["ok"], .bool false),
    (["operation"], .str "worktree_integrate"),
    (["nextTool"], .str "worktree_operation_control"),
    (["nextArgs", "contract_path"], .str expectedPath),
    (["nextArgs", "operation_kind"], .str "integrate"),
    (["nextArgs", "action"], .str "cancel"),
    (["nextArgs", "expected_generation"], .num expectedGeneration),
    (["nextArgs", "dry_run"], .bool true),
    (["applyStep", "nextTool"], .str "worktree_operation_control"),
    (["applyStep", "nextArgs", "contract_path"], .str expectedPath),
    (["applyStep", "nextArgs", "operation_kind"], .str "integrate"),
    (["applyStep", "nextArgs", "action"], .str "cancel"),
    (["applyStep", "nextArgs", "expected_generation"], .num expectedGeneration),
    (["applyStep", "nextArgs", "dry_run"], .bool false)]

/-- The result names the exact cancellation to call. -/
def requireCanonicalCancellationHandoff (result : OperationResult) (expectedPath : String)
    (expectedGeneration : Nat) : Verdict :=
  refuseIf (∃ cell ∈ cancellationHandoff expectedPath expectedGeneration,
      result.get cell.1 ≠ some cell.2)
    "organizational repair evidence requires its canonical cancellation handoff"

/-- The state a result reports. -/
def LifecycleOperationRecord.resultState (record : LifecycleOperationRecord) : Option Scalar :=
  record.result.bind fun result => result.get ["state"]

/-- Repair evidence goes with its result. -/
def requireOrganizationalRepairEvidence (record : LifecycleOperationRecord) : Verdict :=
  match record.organizationalRepair with
  | none => .ok ()
  | some repair => inOrder [
      refuseIf (record.operationKind ≠ .integrate)
        "organizational completion repair evidence belongs to integration",
      refuseIf (record.integrationPublication ≠ none ∨ record.recoveryCommits ≠ none ∨
          record.irreversibleBoundaryEntered = true)
        "organizational repair is an exact preclaim mode without publication or output",
      refuseIf (record.status ∉ [.queued, .running, .inputRequired, .cancelled])
        "organizational repair evidence has an invalid lifecycle status",
      refuseIf (record.resultState ≠ some organizationalGateFailed)
        "organizational repair evidence requires its exact failure result",
      requireCanonicalCancellationHandoff (record.result.getD []) repair.contractPath
        record.generation]

/-- A publication goes with its authority. -/
def requireIntegrationPublication (record : LifecycleOperationRecord) : Verdict :=
  match record.integrationPublication with
  | none => .ok ()
  | some publication =>
    match record.integrationAuthority with
    | none => .error "integration publication intent belongs only to integration"
    | some authority => inOrder [
        refuseIf (record.operationKind ≠ .integrate)
          "integration publication intent belongs only to integration",
        refuseIf (publication.operationKey ≠ record.operationKey ∨
            publication.generation ≠ record.generation)
          "integration publication intent does not bind this generation",
        match record.recoveryCommits with
        | none => .error "integration publication intent does not bind this generation"
        | some commits =>
          refuseIf (commits.codeCommit ≠ authority.codeCandidateCommit ∨
              commits.memoryContentCommit ≠ authority.memoryContentCommit)
            "integration publication ref intent contradicts accepted authority"]

/-! ## Closeout mutation evidence -/

/-- The legs that a closeout or a direct landing commits. -/
def LifecycleOperationInput.effectiveInput? :
    LifecycleOperationInput → Option EffectiveCloseoutInput
  | .closeout effectiveInput _ _ => some effectiveInput
  | .directLanding effectiveInput _ _ => some effectiveInput
  | .integrate _ => none

/-- The legs that are to commit. -/
def expectedCommitLegs (effectiveInput : EffectiveCloseoutInput) : List CloseoutMutationLeg :=
  [.code, .memory].filter fun leg => effectiveInput.enabled leg

/-- One leg is proven. -/
def commitProven (record : LifecycleOperationRecord) : Bool :=
  record.mutationEvidence.items.any fun cell => cell.2.state = .commitProven

/-- The history holds attempts that changed nothing. -/
def requireMutationHistory (record : LifecycleOperationRecord) : Verdict :=
  refuseIf (∃ cell ∈ record.mutationHistory.items, ∃ item ∈ cell.2,
      item.leg ≠ cell.1 ∨ item.state ≠ .reconciledUnchanged)
    "closeout mutation history may preserve only reconciled-unchanged attempts"

/-- The commit recorded for a leg. -/
def recoveryField (commits : LifecycleOperationRecoveryCommits) : CloseoutMutationLeg → String
  | .code => commits.codeCommit
  | .memory => commits.memoryContentCommit

/-- A proven leg agrees with the recorded commit. -/
def requireRecoveryCommitEvidence (record : LifecycleOperationRecord) : Verdict :=
  match record.recoveryCommits with
  | none => .ok ()
  | some commits =>
    refuseIf (∃ cell ∈ record.mutationEvidence.items, cell.2.state = .commitProven ∧
        recoveryField commits cell.1 ≠ "" ∧
        some (recoveryField commits cell.1) ≠ cell.2.commit)
      "closeout recovery commit contradicts commit-proven evidence"

/-- The evidence of a commit operation goes with its input. -/
def requireCloseoutMutationEvidence (record : LifecycleOperationRecord) : Verdict :=
  match record.input.effectiveInput? with
  | none => .error "commit operation requires normalized closeout input"
  | some effectiveInput => inOrder [
      refuseIf (record.mutationEvidence.keys ≠ expectedCommitLegs effectiveInput)
        "closeout mutation evidence must match every enabled commit leg",
      refuseIf (∃ leg ∈ record.mutationHistory.keys, leg ∉ expectedCommitLegs effectiveInput)
        "closeout mutation history must match an enabled commit leg",
      requireMutationHistory record,
      refuseIf (record.irreversibleBoundaryEntered ≠
          (commitProven record || record.legacyMigration.isSome))
        "closeout irreversible boundary must be derived from commit proof or legacy output proof",
      requireRecoveryCommitEvidence record]

/-! ## Worker authority -/

/-- Some part of the binding is there. -/
def bindingPresent (record : LifecycleOperationRecord) : Bool :=
  record.workerPid.isSome || record.workerLease.isSome || record.workerProcessFingerprint.isSome

/-- The binding is complete or not there. -/
def requireCompleteWorkerBinding (record : LifecycleOperationRecord) : Verdict :=
  refuseIf (bindingPresent record ≠ (record.workerPid.isSome && record.workerLease.isSome &&
      record.workerProcessFingerprint.isSome))
    "detached worker pid, lease, and process fingerprint are one authority"

/-- The return state is there just while a termination is required. -/
def requireTerminationReturnIdentity (record : LifecycleOperationRecord) : Verdict :=
  let expected := decide (record.status = .terminationRequired)
  refuseIf ((record.terminationReturnStatus.isSome, record.terminationReturnPhase.isSome) ≠
      (expected, expected))
    "termination-required status must retain one exact return status and phase identity"

/-- A direct landing has no worker. -/
def requireNoDirectWorkerAuthority (record : LifecycleOperationRecord) : Verdict :=
  refuseIf (bindingPresent record = true ∨ record.workerTermination ≠ none ∨
      record.terminationReturnStatus ≠ none ∨ record.terminationReturnPhase ≠ none)
    "synchronous direct landing cannot carry detached worker authority"

/-- The worker part of a record. -/
def requireWorkerAuthority (record : LifecycleOperationRecord) : Verdict :=
  if record.operationKind = .directLanding then requireNoDirectWorkerAuthority record
  else inOrder [
    requireCompleteWorkerBinding record,
    requireTerminationReturnIdentity record,
    match record.workerTermination with
    | none =>
      refuseIf (record.terminationReturnStatus ≠ none)
        "termination return status requires durable termination evidence"
    | some termination => inOrder [
        refuseIf (termination.state ≠ .exited ∧ (some termination.lease ≠ record.workerLease ∨
            some termination.pid ≠ record.workerPid))
          "unproven worker termination must retain the exact pid and lease",
        refuseIf (termination.state = .exited ∧ bindingPresent record = true)
          "proven worker exit must release pid and lease authority"]]

/-! ## Cancellation and legacy migration -/

/-- The leg as the file has it. -/
def PreparationLeg.text : PreparationLeg → String
  | .code => "code"
  | .memoryContent => "memory-content"

/-- Cancellation evidence goes with a cancelled generation. -/
def requireCancellationEvidence (record : LifecycleOperationRecord) : Verdict :=
  match record.cancellationEvidence with
  | none => .ok ()
  | some evidence => inOrder [
      refuseIf (evidence.operationKind ≠ record.operationKind ∨
          evidence.generation ≠ record.generation ∨ evidence.workerExitProven = false)
        "cancellation evidence must bind this generation and proven worker exit",
      refuseIf (record.status ≠ .cancelled)
        "cancellation evidence belongs only to a cancelled generation",
      refuseIf (∃ preparation ∈ record.preparation.toList, ∃ leg ∈ preparation.legs,
          evidence.expected.lookup ("preparation:" ++ leg.leg.text ++ ":intent") ≠
            some leg.intent.semanticDigest)
        "private cancellation evidence must bind every selected preparation intent"]

/-- What a migrated record says of its input. -/
def requireLegacyEffectiveInput (effectiveInput : EffectiveCloseoutInput) (approvalNote : String)
    (proof : LegacyCloseoutMigrationProof) : Verdict :=
  inOrder [
    refuseIf (effectiveInput.code ≠ .notApplicable "verified-existing legacy code output")
      "legacy migration code leg must be typed verified-existing",
    match effectiveInput.memory with
    | .notApplicable _ => .error "legacy migration must keep unfinished memory content enabled"
    | .enabled _ message =>
      refuseIf (message ≠ proof.memoryCommitMessage ∨ approvalNote ≠ proof.legacyApprovalNote)
        "legacy migration must bind unfinished memory intent exactly"]

/-- A migration proof goes with its record. -/
def requireLegacyMigration (record : LifecycleOperationRecord) : Verdict :=
  match record.legacyMigration with
  | none => .ok ()
  | some proof =>
    match record.input with
    | .closeout effectiveInput approvalNote _ => inOrder [
        refuseIf (record.operationKind ≠ .closeout)
          "legacy migration proof belongs only to a closeout operation",
        refuseIf (record.operationKey ≠ proof.legacyOperationKey ∨
            record.fingerprint ≠ proof.legacyFingerprint ∨
            record.candidateState ≠ proof.legacyCandidateState ∨
            record.candidateTree ≠ some proof.legacyCandidateTree)
          "legacy migration proof must retain the legacy generation identity",
        refuseIf (record.recoveryCommits.map (·.codeCommit) ≠ some proof.codeCommit)
          "legacy migration recovery code commit must equal its live proof",
        requireLegacyEffectiveInput effectiveInput approvalNote proof,
        refuseIf (record.status = .cancelled ∨ record.generationDisposition ≠ .active)
          "legacy migration proof cannot be cancelled, retired, or superseded"]
    | _ => .error "legacy migration proof belongs only to a closeout operation"

/-! ## The record's validator -/

/-- The record's validators, in order. -/
def requireAltitudeAuthority (record : LifecycleOperationRecord) : Verdict :=
  inOrder [
    refuseIf (record.operationKind ≠ record.input.kind)
      "lifecycle operation kind must equal its accepted input kind",
    validateCertificationOwner record.certification record.operationKind record.operationKey
      record.generation,
    validatePreparationOwner record.preparation record.operationKind record.operationKey
      record.generation record.certification.isSome,
    validatePreparedCodeRetention record,
    requireIntegrationCertificationAuthority record,
    refuseIf (record.operationKind = .integrate ∧
        (record.doorPublication ≠ none ∨ record.doorPublicationHistory ≠ []))
      "door publication belongs only to schedulable commit operations",
    refuseIf (record.operationKind = .integrate ∧ record.integrationAuthority = none)
      "integrate operation requires exact integrationAuthority",
    refuseIf (record.operationKind ≠ .integrate ∧ record.integrationAuthority ≠ none)
      "only integrate operations may carry integrationAuthority",
    requireTaskIntentState record,
    refuseIf (record.operationKind ≠ .closeout ∧ record.closeoutFinalizedContractSha256 ≠ none)
      "closeout finalized contract SHA-256 belongs to closeout operations only",
    refuseIf (record.operationKind ≠ .integrate ∧
        record.resultState = some organizationalGateFailed)
      "organizational completion quality failure belongs to integration only",
    requireOrganizationalRepairEvidence record,
    requireIntegrationPublication record,
    if record.operationKind ≠ .integrate then requireCloseoutMutationEvidence record
    else refuseIf (record.mutationEvidence.items ≠ [])
      "integration operation cannot carry closeout mutation evidence",
    requireWorkerAuthority record,
    requireCancellationEvidence record,
    requireLegacyMigration record]

/-- What `model_validate` accepts. -/
def Valid (record : LifecycleOperationRecord) : Prop :=
  requireAltitudeAuthority record = .ok ()

instance (record : LifecycleOperationRecord) : Decidable (Valid record) :=
  inferInstanceAs (Decidable (_ = _))

end AgentsRemember.Lifecycle
