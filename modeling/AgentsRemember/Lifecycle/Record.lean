import AgentsRemember.Foundation.Checks
import AgentsRemember.Foundation.Datum

/-!
# Lifecycle — Record

The durable record of a lifecycle operation and the records inside it. Patterns
and lengths of text fields are left out; where a part of the record is compared
as a whole and never looked into, its remaining cells are one text. What a
part's own validator asks of it is a field of the part.
-/

namespace AgentsRemember.Lifecycle

/-- The three operations. -/
inductive LifecycleOperationKind where
  | closeout | integrate | directLanding
deriving DecidableEq

/-- The statuses of an operation. -/
inductive LifecycleOperationStatus where
  | queued | running | inputRequired | terminationRequired | completed | failed | cancelled
deriving DecidableEq

/-- The status as the file has it. -/
def LifecycleOperationStatus.text : LifecycleOperationStatus → String
  | .queued => "queued"
  | .running => "running"
  | .inputRequired => "input-required"
  | .terminationRequired => "termination-required"
  | .completed => "completed"
  | .failed => "failed"
  | .cancelled => "cancelled"

/-- The phases of an operation. -/
inductive LifecycleOperationPhase where
  | queued | preflight | memoryPreflight | quality | approvalClaim | recoveringAfterClaim
  | recoveringPrivatePreparation | codeCommit | memoryRefresh | memoryCommit | integrationReplay
  | integrationQuality | sourceMerge | contractFinalization | doorPublication
  | terminationRequired | directPreflight | directMemoryCommit | directTerminalPublication
  | completed | failed | cancelled
deriving DecidableEq

/-- What a status that asks for termination may return to. -/
inductive TerminationReturnStatus where
  | queued | running | inputRequired | failed | completed
deriving DecidableEq

/-- What became of a generation. -/
inductive GenerationDisposition where
  | active | cancelled | retired | superseded
deriving DecidableEq

/-! ## Mutation evidence -/

/-- The two repositories a closeout commits to. -/
inductive CloseoutMutationLeg where
  | code | memory
deriving DecidableEq

/-- The leg as the file has it. -/
def CloseoutMutationLeg.text : CloseoutMutationLeg → String
  | .code => "code"
  | .memory => "memory"

/-- A dictionary over the two legs. -/
structure Legs (α : Type) where
  code : Option α := none
  memory : Option α := none
deriving DecidableEq

/-- The value of one leg. -/
def Legs.get {α : Type} (legs : Legs α) : CloseoutMutationLeg → Option α
  | .code => legs.code
  | .memory => legs.memory

/-- The legs that have an entry, the code leg first. -/
def Legs.keys {α : Type} (legs : Legs α) : List CloseoutMutationLeg :=
  [.code, .memory].filter fun leg => (legs.get leg).isSome

/-- The legs that have a value, the code leg first. -/
def Legs.items {α : Type} (legs : Legs α) : List (CloseoutMutationLeg × α) :=
  [.code, .memory].filterMap fun leg => (legs.get leg).map fun value => (leg, value)

theorem Legs.mem_items {α : Type} {legs : Legs α} {leg : CloseoutMutationLeg} {value : α} :
    (leg, value) ∈ legs.items ↔ legs.get leg = some value := by
  cases leg <;> simp [Legs.items]

/-- How far the mutation of a leg is. -/
inductive MutationEvidenceState where
  | preMutation | mutationIntent | reconciledUnchanged | commitProven
deriving DecidableEq

/-- The state as the file has it. -/
def MutationEvidenceState.text : MutationEvidenceState → String
  | .preMutation => "pre-mutation"
  | .mutationIntent => "mutation-intent"
  | .reconciledUnchanged => "reconciled-unchanged"
  | .commitProven => "commit-proven"

/-- A repository as it was read. -/
structure GitMutationSnapshot where
  headRef : String
  head : String
  headTree : String
  contentHeadTree : Option String := none
  refLogFingerprint : String
  indexTree : String
  candidateTree : String
  statusFingerprint : String
deriving DecidableEq

/-- What `_require_state_evidence` asks of the cells of a state. -/
def StateEvidence (state : MutationEvidenceState) (before observed : Option GitMutationSnapshot)
    (expectedOutputTree commit : Option String) : Prop :=
  match state with
  | .preMutation => before = none ∧ observed = none ∧ expectedOutputTree = none ∧ commit = none
  | .mutationIntent => commit = none ∧ before.isSome ∧ observed ≠ before
  | .reconciledUnchanged => commit = none ∧ before.isSome ∧ observed = before
  | .commitProven =>
    match before, observed, expectedOutputTree, commit with
    | some before, some observed, some tree, some commit =>
      observed.headRef = before.headRef ∧ observed.head = commit ∧ observed.headTree = tree
    | _, _, _, _ => False

instance (state before observed expectedOutputTree commit) :
    Decidable (StateEvidence state before observed expectedOutputTree commit) := by
  unfold StateEvidence
  split
  · infer_instance
  · infer_instance
  · infer_instance
  · split <;> infer_instance

/-- The evidence of one leg; its cells go with its state. -/
structure GitMutationEvidence where
  leg : CloseoutMutationLeg
  repository : String
  state : MutationEvidenceState := .preMutation
  acceptedBefore : Option GitMutationSnapshot := none
  before : Option GitMutationSnapshot := none
  observed : Option GitMutationSnapshot := none
  expectedOutputTree : Option String := none
  commit : Option String := none
  evidence : StateEvidence state before observed expectedOutputTree commit
deriving DecidableEq

/-- The commit of a proven leg is the observed head. -/
theorem GitMutationEvidence.commit_eq {e : GitMutationEvidence} (h : e.state = .commitProven) :
    ∃ before observed tree, e.before = some before ∧ e.observed = some observed ∧
      e.expectedOutputTree = some tree ∧ e.commit = some observed.head := by
  have hevidence := e.evidence
  rw [h] at hevidence
  simp only [StateEvidence] at hevidence
  split at hevidence
  next before observed tree commit hbefore hobserved htree hcommit =>
    exact ⟨before, observed, tree, hbefore, hobserved, htree, by rw [hcommit, hevidence.2.1]⟩
  · exact hevidence.elim

/-- A code commit has a text, so the tuple is never empty. -/
structure LifecycleOperationRecoveryCommits where
  codeCommit : String
  memoryContentCommit : String := ""
  nonempty : codeCommit ≠ ""
deriving DecidableEq

/-! ## Worker evidence -/

/-- How far the termination of a worker is. -/
inductive WorkerTerminationState where
  | requested | terminationRequired | exited
deriving DecidableEq

/-- A request to a worker to end, and its exit. -/
structure WorkerTerminationEvidence where
  state : WorkerTerminationState
  pid : Nat
  lease : String
  processFingerprint : String
  requestedAt : String
  signal : String := "SIGTERM"
  observedAt : Option String := none
  detail : String := ""
  failureEvidence : Option String := none
  exitHasObservation : state = .exited ↔ observedAt.isSome
deriving DecidableEq

/-- Proof that a cancelled operation changed nothing. -/
structure LifecycleCancellationEvidence where
  operationKind : LifecycleOperationKind
  generation : Nat
  workerExitProven : Bool
  expected : List (String × String)
  observed : List (String × String)
  provenAt : String
  unchanged : expected ≠ [] ∧ observed = expected
deriving DecidableEq

/-! ## Accepted input and authority -/

/-- The task intent of an operation, or that there is none. -/
inductive TaskIntentState where
  | identity (digest : String)
  | missing
deriving DecidableEq

/-- There is no intent to compare with. -/
def taskIntentIsMissing (value : Option TaskIntentState) : Bool :=
  match value with
  | some (.identity _) => false
  | _ => true

/-- A leg that commits, or why it does not. -/
inductive EffectiveCloseoutLeg where
  | enabled (reason message : String)
  | notApplicable (reason : String)
deriving DecidableEq

/-- Where the memory of a task lives. -/
inductive MemoryMode where
  | internal | external | disabled
deriving DecidableEq

/-- The normalized input of a closeout. -/
structure EffectiveCloseoutInput where
  route : String
  contractKind : String
  memoryMode : MemoryMode
  code : EffectiveCloseoutLeg
  memory : EffectiveCloseoutLeg
deriving DecidableEq

/-- The leg commits. -/
def EffectiveCloseoutInput.enabled (input : EffectiveCloseoutInput)
    (leg : CloseoutMutationLeg) : Bool :=
  match leg with
  | .code => match input.code with
    | .enabled .. => true
    | .notApplicable _ => false
  | .memory => match input.memory with
    | .enabled .. => true
    | .notApplicable _ => false

/-- The accepted input of each kind of operation; `others` are its other cells. -/
inductive LifecycleOperationInput where
  | closeout (effectiveInput : EffectiveCloseoutInput) (approvalNote others : String)
  | integrate (others : String)
  | directLanding (effectiveInput : EffectiveCloseoutInput) (approvalNote others : String)
deriving DecidableEq

/-- The operation an input belongs to. -/
def LifecycleOperationInput.kind : LifecycleOperationInput → LifecycleOperationKind
  | .closeout .. => .closeout
  | .integrate _ => .integrate
  | .directLanding .. => .directLanding

/-- What an integration was admitted for. -/
structure IntegrationOperationAuthority where
  codeCandidateCommit : String
  memoryContentCommit : String := ""
  others : String := ""
deriving DecidableEq

/-- What was taken over from an operation of the old format. -/
structure LegacyCloseoutMigrationProof where
  legacyOperationKey : String
  legacyFingerprint : String
  legacyCandidateState : String
  legacyCandidateTree : String
  legacyApprovalNote : String
  memoryCommitMessage : String
  codeCommit : String
  others : String
deriving DecidableEq

/-! ## Publications -/

/-- The door generation a closeout publishes. -/
structure CloseoutDoorGeneration where
  generationId : String
  taskIntent : TaskIntentState
  others : String
deriving DecidableEq

/-- How far the publication of a door is. -/
inductive DoorPublicationState where
  | intent | proven
deriving DecidableEq

/-- The publication of a door. -/
structure DoorPublicationEvidence where
  state : DoorPublicationState
  generation : CloseoutDoorGeneration
deriving DecidableEq

/-- How far the claim of an integration is. -/
inductive IntegrationClaimState where
  | notApplicable | intent | proven
deriving DecidableEq

/-- What an integration is about to publish. -/
structure IntegrationPublicationIntent where
  operationKey : String := ""
  generation : Nat := 0
  claimState : IntegrationClaimState
  claimTransferredAt : Option String := none
  others : String
  provenHasTime : claimState = .proven ↔ claimTransferredAt.isSome
deriving DecidableEq

/-- The repair of an organizational completion. -/
structure OrganizationalCompletionRepairEvidence where
  contractPath : String
  others : String
deriving DecidableEq

/-! ## Certification and preparation -/

/-- The objects of the certificate store. -/
inductive CertificateObjectKind where
  | admission | resultManifest | certificate | finalization | frozenRun | candidateAuthorities
  | lifecycleAdmission | priorRedDisposition | recovery | preparationIntent | preparedOutput
deriving DecidableEq

/-- One stored object by its digests and size. -/
structure CertificateObjectReference where
  kind : CertificateObjectKind
  semanticDigest : String
  contentSha256 : String
  sizeBytes : Nat
deriving DecidableEq

/-- Bytes of an owner, under the hash they were selected with. -/
structure RetainedCertificationBytes where
  canonicalBytes : String
  contentSha256 : String
deriving DecidableEq

/-- The recovery decision of a certification. -/
structure SelectedRecoveryDecision where
  reference : CertificateObjectReference
  memoryInputs : Option RetainedCertificationBytes := none
  isRecovery : reference.kind = .recovery
deriving DecidableEq

/-- The generation a certification was taken over from. -/
structure CertificationPredecessor where
  operationKey : String
  generation : Nat
  frozenRun : CertificateObjectReference
  candidateAuthorities : CertificateObjectReference
  lifecycleAdmission : CertificateObjectReference
  kinds : frozenRun.kind = .frozenRun ∧ candidateAuthorities.kind = .candidateAuthorities ∧
    lifecycleAdmission.kind = .lifecycleAdmission
deriving DecidableEq

/-- The result of a gate, with its certificate where it is green. -/
structure SelectedGateTerminal where
  gate : Nat
  result : CertificateObjectReference
  certificate : Option CertificateObjectReference := none
  publication : RetainedCertificationBytes
  reusedFrom : Option CertificationPredecessor := none
  isResult : result.kind = .resultManifest
  isCertificate : ∀ reference ∈ certificate, reference.kind = .certificate
  reusedIsCertified : reusedFrom ≠ none → certificate ≠ none
deriving DecidableEq

/-- Each gate once, in order. -/
def GatesOrdered (terminals : List SelectedGateTerminal) : Prop :=
  (terminals.map (·.gate)).Pairwise (· < ·)

instance (terminals : List SelectedGateTerminal) : Decidable (GatesOrdered terminals) :=
  inferInstanceAs (Decidable (List.Pairwise _ _))

/-- What `_require_selected_shape` asks of the attempts that were replaced. -/
def HistoryShape (history : List SelectedGateTerminal) : Prop :=
  (∀ terminal ∈ history, terminal.certificate = none ∧ terminal.reusedFrom = none) ∧
    (history.map (·.gate)).Pairwise (· ≤ ·) ∧ history.Nodup

instance (history : List SelectedGateTerminal) : Decidable (HistoryShape history) :=
  inferInstanceAs (Decidable (_ ∧ _))

/-- What a closeout generation is certified by. -/
structure OperationCertificationState where
  operationKey : String
  generation : Nat
  frozenRun : CertificateObjectReference
  candidateAuthorities : CertificateObjectReference
  lifecycleAdmission : CertificateObjectReference
  priorRedDisposition : Option CertificateObjectReference := none
  predecessor : Option CertificationPredecessor := none
  inputTerminals : List SelectedGateTerminal := []
  recoveryDecisions : List SelectedRecoveryDecision
  terminals : List SelectedGateTerminal := []
  terminalHistory : List SelectedGateTerminal := []
  sizes : inputTerminals.length ≤ 5 ∧ recoveryDecisions.length ∈ List.range' 1 256 ∧
    terminals.length ≤ 5 ∧ terminalHistory.length ≤ 256
  kinds : frozenRun.kind = .frozenRun ∧ candidateAuthorities.kind = .candidateAuthorities ∧
    lifecycleAdmission.kind = .lifecycleAdmission ∧
    ∀ reference ∈ priorRedDisposition, reference.kind = .priorRedDisposition
  adjacentDiffer : ∀ pair ∈ recoveryDecisions.zip recoveryDecisions.tail, pair.1 ≠ pair.2
  gates : GatesOrdered inputTerminals ∧ GatesOrdered terminals
  inheritsFrom : inputTerminals ≠ [] → predecessor ≠ none
  history : HistoryShape terminalHistory
deriving DecidableEq

/-- What an integration generation is certified by. -/
structure IntegrationCertificationSelection where
  operationKey : String
  generation : Nat
  frozenRun : CertificateObjectReference
  diffBase : String
  memoryCapBytes : Option Nat := none
  completionFingerprint : Option String := none
  terminals : List SelectedGateTerminal := []
  terminalHistory : List SelectedGateTerminal := []
  others : String
deriving DecidableEq

/-- What an integration attests of its quality gates. -/
structure IntegrationQualityCertification where
  completionFingerprint : String
  codeCommit : String
  /-- The attested comparison base and memory cap. -/
  diffBase : String
  memoryCapBytes : String
  frozenRun : CertificateObjectReference
  terminals : List SelectedGateTerminal
  others : String
deriving DecidableEq

/-- The legs of the private preparation. -/
inductive PreparationLeg where
  | code | memoryContent
deriving DecidableEq

/-- The commands of a preparation leg. -/
inductive PreparationCommandKind where
  | create | materialize | commit
deriving DecidableEq

/-- The order the commands run in. -/
def commandOrder : List PreparationCommandKind := [.create, .materialize, .commit]

/-- The order the legs are prepared in. -/
def legOrder : List PreparationLeg := [.code, .memoryContent]

/-- How a command ended. -/
inductive PreparationOutcome where
  | succeeded | failed | unknown
deriving DecidableEq

/-- What `_require_actual_exit` asks of an outcome and the return code with it. -/
def ActualExit (outcome : PreparationOutcome) (returnCode : Option Int) : Prop :=
  match outcome with
  | .unknown => returnCode = none
  | .succeeded => returnCode = some 0
  | .failed => returnCode ≠ none ∧ returnCode ≠ some 0

instance (outcome : PreparationOutcome) (returnCode : Option Int) :
    Decidable (ActualExit outcome returnCode) := by
  unfold ActualExit
  split <;> infer_instance

/-- The end of a command, as it was observed. -/
structure PreparationCommandTerminal where
  outcome : PreparationOutcome
  observedAt : String
  returnCode : Option Int := none
  stdoutSha256 : Option String := none
  stderrSha256 : Option String := none
  detail : String := ""
  actualExit : ActualExit outcome returnCode
deriving DecidableEq

/-- A started command and the worker that started it. -/
structure PreparationCommand where
  kind : PreparationCommandKind
  cwd : String
  argv : List String
  workerPid : Nat
  workerLease : String
  workerProcessFingerprint : String
  startedAt : String
  terminal : Option PreparationCommandTerminal := none
deriving DecidableEq

/-- The command ended well. -/
def PreparationCommand.succeeded (command : PreparationCommand) : Bool :=
  command.terminal.any fun terminal => terminal.outcome = .succeeded

/-- A preparation leg: its intent, its commands, its output. -/
structure SelectedPreparation where
  leg : PreparationLeg
  intent : CertificateObjectReference
  commands : List PreparationCommand := []
  output : Option CertificateObjectReference := none
  isIntent : intent.kind = .preparationIntent
  isOutput : ∀ reference ∈ output, reference.kind = .preparedOutput
  ordered : commands.map (·.kind) = commandOrder.take commands.length
  unblocked : ∀ command ∈ commands.dropLast, command.succeeded = true
  outputCommand : output ≠ none → commands ≠ [] →
    commands.length = 3 ∧ ∀ command ∈ commands.getLast?, command.terminal ≠ none
deriving DecidableEq

/-- The preparation legs, in their order. -/
structure OperationPreparationState where
  operationKey : String
  generation : Nat
  legs : List SelectedPreparation
  nonempty : legs ≠ []
  ordered : legs.map (·.leg) = legOrder.take legs.length
  outputs : ∀ leg ∈ legs.dropLast, leg.output ≠ none
deriving DecidableEq

/-- The prepared code a successor keeps. -/
structure PreparedCodeRetention where
  predecessorGeneration : Nat
  predecessorFingerprint : String
  successorIntent : CertificateObjectReference
  successorOutput : CertificateObjectReference
  others : String
deriving DecidableEq

/-! ## The record -/

/-- The leaves of a result, under the keys that lead to them. -/
abbrev OperationResult := List (List String × Scalar)

/-- The value at a path of a result. -/
def OperationResult.get (result : OperationResult) (path : List String) : Option Scalar :=
  result.lookup path

/-- The part of a record that names the generation. -/
@[ext] structure GenerationIdentity where
  taskId : String
  taskName : String
  contractPath : String
  operationKind : LifecycleOperationKind
  candidateState : String
  candidateTree : Option String := none
  taskIntent : Option TaskIntentState := none
  fingerprint : String
  operationKey : String
  generation : Nat := 1
  predecessorFingerprint : String := ""
  integrationAuthority : Option IntegrationOperationAuthority := none
  input : LifecycleOperationInput
  reportPath : String
deriving DecidableEq

/-- The part of a record that moves. -/
structure GenerationProgress where
  recordRevision : Nat := 1
  meaningfulRevision : Nat := 1
  successorFingerprint : String := ""
  generationDisposition : GenerationDisposition := .active
  supersedeDeclarationFingerprint : Option String := none
  status : LifecycleOperationStatus
  phase : LifecycleOperationPhase
  queuedAt : String
  startedAt : Option String := none
  heartbeatAt : Option String := none
  finishedAt : Option String := none
  currentCommand : String := ""
  result : Option OperationResult := none
  failure : Option String := none
  guidance : Option String := none
  cancelRequested : Bool := false
  attempt : Nat := 1
  cancellationEvidence : Option LifecycleCancellationEvidence := none
  dependencies : Option String := none
deriving DecidableEq

/-- The part of a record about mutations. -/
structure MutationAuthority where
  irreversibleBoundaryEntered : Bool := false
  approvalClaimed : Bool := false
  mutationEvidence : Legs GitMutationEvidence := {}
  mutationHistory : Legs (List GitMutationEvidence) := {}
  recoveryCommits : Option LifecycleOperationRecoveryCommits := none
  closeoutFinalizedContractSha256 : Option String := none
  legacyMigration : Option LegacyCloseoutMigrationProof := none
deriving DecidableEq

/-- The part of a record about certification. -/
structure CertificationAuthority where
  qualityCertification : Option IntegrationQualityCertification := none
  certification : Option OperationCertificationState := none
  preparation : Option OperationPreparationState := none
  preparedCodeRetention : Option PreparedCodeRetention := none
  integrationCertification : Option IntegrationCertificationSelection := none
  integrationPublication : Option IntegrationPublicationIntent := none
  organizationalRepair : Option OrganizationalCompletionRepairEvidence := none
  doorPublication : Option DoorPublicationEvidence := none
  doorPublicationHistory : List DoorPublicationEvidence := []
deriving DecidableEq

/-- The part of a record about the worker. -/
structure WorkerAuthority where
  workerPid : Option Nat := none
  workerLease : Option String := none
  workerProcessFingerprint : Option String := none
  workerTermination : Option WorkerTerminationEvidence := none
  workerTerminationHistory : List WorkerTerminationEvidence := []
  terminationReturnStatus : Option TerminationReturnStatus := none
  terminationReturnPhase : Option LifecycleOperationPhase := none
deriving DecidableEq

/-- The snapshot stored in an enclosure. -/
structure LifecycleOperationRecord extends GenerationIdentity, GenerationProgress,
  MutationAuthority, CertificationAuthority, WorkerAuthority
deriving DecidableEq

end AgentsRemember.Lifecycle
