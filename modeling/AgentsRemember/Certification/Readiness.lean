import AgentsRemember.Certification.Chains
import Mathlib.Data.Finset.Dedup

/-!
# Certification — Readiness

The readiness of a closeout: one observation of the profile, the lifecycle and
the five gates, held against the plan and the admission, and the projection
that every surface shows of it.
-/

namespace AgentsRemember.Certification

open Checks Attempts

/-! ## Observations -/

/-- Where the lifecycle of a closeout stands. -/
inductive LifecycleReadinessState where
  | admissionPending | admissionRefused | admitted | finalizationPending | finalizationRunning
  | finalizationRefused | finalized
deriving DecidableEq

/-- Where a gate stands. -/
inductive GateReadinessState where
  | notStarted | blocked | running | passed | failed | invalidated
deriving DecidableEq

/-- Where its certificate stands. -/
inductive CertificateReadinessState where
  | absent | currentGreen | stale | invalidated | unavailable
deriving DecidableEq

/-- Where the repository profile stands. -/
inductive ProfileReadinessState where
  | unresolved | invalid | admittedCurrent | changed
deriving DecidableEq

/-- What a surface shows of a rail. -/
inductive RailReadinessState where
  | pass | fail | blocked | notApplicable | reportOnlyPass | reportOnlyFail
deriving DecidableEq

/-- The gate has been started. -/
def GateReadinessState.Started : GateReadinessState → Prop
  | .running | .passed | .failed => True
  | .notStarted | .blocked | .invalidated => False

instance : DecidablePred GateReadinessState.Started := fun state => by
  cases state <;> unfold GateReadinessState.Started <;> infer_instance

/-- The generation and revision an observation was made at. -/
structure ReadinessRevision where
  generationId : String
  revision : Nat
deriving DecidableEq

/-- Evidence a refusal names. -/
structure ReadinessEvidenceReference where
  evidenceId : String
  sha256 : String
  size : Nat
  reference : String
deriving DecidableEq

/-- The repository's plan of a gate, its digest alone. -/
structure RepositoryGatePlan where
  planDigest : String

/-- The repository's plan of its gates. -/
structure RepositoryProfilePlan where
  profileDigest : String
  candidateIdentity : CandidateIdentity
  selectionId : String
  gates : List RepositoryGatePlan
  planDigest : String

/-- What is seen of the profile. -/
structure ProfileReadinessObservation where
  revision : ReadinessRevision
  state : ProfileReadinessState
  repositoryPlan : Option RepositoryProfilePlan := none

/-- What is seen of the lifecycle; its evidence goes with its state. -/
structure LifecycleReadinessObservation where
  revision : ReadinessRevision
  state : LifecycleReadinessState
  blockedBy : List String := []
  code : Option String := none
  correctiveOwner : Option String := none
  evidence : List ReadinessEvidenceReference := []
  /-- Only refused lifecycle states have failure evidence. -/
  refusal : state ∈ [.admissionRefused, .finalizationRefused] ↔
    code.isSome ∧ correctiveOwner.isSome ∧ evidence ≠ []

variable (contentDigest : Content → String)

/-- What is seen of one gate; its fields go with its state. -/
structure GateReadinessObservation where
  revision : ReadinessRevision
  gate : GateId
  state : GateReadinessState
  blockedBy : List String := []
  resultManifest : Option GateResultManifest := none
  certificateState : CertificateReadinessState := .absent
  certificate : Option (GateCertificate contentDigest) := none
  genericTerminalReplacement : Bool := false
  /-- Exactly a blocked gate says by what. -/
  blocked : state = .blocked ↔ blockedBy ≠ []
  /-- Exactly a gate that ended has a result. -/
  ended : state ∈ [.passed, .failed] ↔ resultManifest.isSome
  /-- Only current, stale and invalidated certificates have bytes. -/
  bytes : (certificateState = .currentGreen ↔ certificate.isSome) ∨
    certificateState ∈ [.stale, .invalidated] ∧ certificate.isSome

/-- A diagnostic run beside the certifying one. -/
structure DiagnosticReadinessObservation where
  revision : ReadinessRevision
  plan : CertificationPlan
  resultManifest : GateResultManifest

/-- Everything a readiness projection is compiled from. -/
structure CloseoutReadinessInput where
  revision : ReadinessRevision
  repositoryId : String
  certificationPlan : CertificationPlan
  profile : ProfileReadinessObservation
  lifecycle : LifecycleReadinessObservation
  gates : List (GateReadinessObservation contentDigest)
  admission : Option (CertificationAdmissionManifest contentDigest) := none
  gateFiveInputs : Option GateFiveSemanticInputs := none
  diagnostics : List DiagnosticReadinessObservation := []
  finalizationAuthority : Option (FinalizationCertificateAuthority contentDigest) := none
  finalizationInputs : Option FinalizationCurrentInputs := none
  five : gates.length = 5

variable {contentDigest}

/-! ## Projections -/

/-- What is shown of the profile. -/
structure ProfileReadinessProjection where
  state : ProfileReadinessState
  profileId : String
  repositoryPlanDigest : Option String
  admittedProfileDigest : Option String
deriving DecidableEq

/-- What is shown of the lifecycle. -/
structure LifecycleReadinessProjection where
  state : LifecycleReadinessState
  blockedBy : List String
  code : Option String
  correctiveOwner : Option String
  evidence : List ReadinessEvidenceReference
deriving DecidableEq

/-- What is shown of a rail. -/
structure RailReadinessProjection where
  rail : RailIdentity
  posture : RailPosture
  /-- Applicable, or not. -/
  applicability : Bool
  state : Option RailReadinessState
  code : Option String
  correctiveOwner : String
  blockedBy : List RailIdentity
  evidence : List RailEvidenceReference
deriving DecidableEq

/-- What is shown of a gate. -/
structure GateReadinessProjection where
  gate : GateId
  gatePlanDigest : String
  state : GateReadinessState
  blockedBy : List String
  rails : List RailReadinessProjection
  resultManifestDigest : Option String
  certificateState : CertificateReadinessState
  certificateDigest : Option String
deriving DecidableEq

/-- What is shown of a diagnostic run. -/
structure DiagnosticReadinessProjection where
  certificationPlanDigest : String
  gate : GateId
  disposition : Disposition
  rails : List RailReadinessProjection
  resultManifestDigest : String
deriving DecidableEq

/-- The projection without its digest. -/
structure CloseoutReadinessPayload where
  revision : ReadinessRevision
  repositoryId : String
  candidateIdentity : CandidateIdentity
  registryDigest : String
  certificationPlanDigest : String
  profile : ProfileReadinessProjection
  lifecycle : LifecycleReadinessProjection
  gates : List GateReadinessProjection
  diagnostics : List DiagnosticReadinessProjection
  certificationReady : Bool
  finalizationAuthorityDigest : Option String
deriving DecidableEq

/-- The payload under its digest. -/
structure CloseoutReadinessProjection extends CloseoutReadinessPayload where
  projectionDigest : String
deriving DecidableEq

/-! ## Plans and results -/

/-- How a compilation ends without a projection: a refusal, or an exception of
the interpreter (an assertion, a missing key, an index). -/
inductive ReadinessRefusal where
  | refused (refusal : Refusal)
  | raised (what : String)
deriving DecidableEq

/-- A refusal of this compiler. -/
def readinessRefused (code path findingDetail : String) : ReadinessRefusal :=
  .refused (.contract "closeout readiness compilation failed" code path findingDetail)

/-- The plan is certifying and has the five gates. -/
def requireCertifyingPlan (plan : CertificationPlan) : Except ReadinessRefusal Unit :=
  refuseIf (plan.profileKind ≠ .certifying ∨ plan.gates.map (fun gate => gate.gate.1) ≠
      [1, 2, 3, 4, 5])
    (readinessRefused "certifying-plan-required" "certificationPlan"
      "closeout readiness requires the exact complete certifying Gate 1-5 plan")

/-- The result keeps what its rail declares. -/
def requireResultContract (rail : CompiledRail) (result : RailResult) :
    Except ReadinessRefusal Unit :=
  let declaredEvidence := Keyed.dict (rail.evidenceContract.map fun item =>
    (item.evidenceId, item.maxBytes))
  let observedEvidence := Keyed.dict (result.evidence.map fun item => (item.evidenceId, item))
  inOrder
    [ refuseIf ((result.posture, result.correctiveOwner) ≠ (rail.posture, rail.correctiveOwner) ∨
          (rail.applicability.applicable = true ↔ result.status = .notApplicable))
        (readinessRefused "rail-result-plan-mismatch" ("railResults." ++ rail.identity.key)
          "rail posture, owner, or applicability differs from its exact plan"),
      refuseIf ((observedEvidence.map Prod.fst).toFinset ≠
            (declaredEvidence.map Prod.fst).toFinset ∨
          ∃ item ∈ observedEvidence, (declaredEvidence.lookup item.1).getD 0 < item.2.size)
        (readinessRefused "rail-result-evidence-mismatch"
          ("railResults." ++ rail.identity.key ++ ".evidence")
          "terminal result must preserve every declared bounded evidence reference") ]

/-- The planned rails by their key. -/
def plannedRails (gatePlan : GatePlan) : List (String × CompiledRail) :=
  Keyed.dict (gatePlan.rails.map fun rail => (rail.identity.key, rail))

/-- The observed results by their rail. -/
def observedResults (manifest : GateResultManifest) : List (String × RailResult) :=
  Keyed.dict (manifest.railResults.map fun result => (result.rail.key, result))

/-- The result of a planned rail; the catalogs are the same, so there is one. -/
def requirePlannedResult (manifest : GateResultManifest) (identity : String)
    (rail : CompiledRail) : Except ReadinessRefusal Unit :=
  match (observedResults manifest).lookup identity with
  | none => .error (.raised "KeyError")
  | some result => requireResultContract rail result

/-- The results are of the very plan, rail by rail. -/
def requireManifest (certificationPlan : CertificationPlan) (gatePlan : GatePlan)
    (manifest : GateResultManifest) : Except ReadinessRefusal Unit := do
  refuseIf
    ((manifest.registryDigest, manifest.candidateIdentity, manifest.profileId,
        manifest.profileKind, manifest.gate, manifest.gatePlanDigest,
        manifest.certificationPlanDigest) ≠
      (gatePlan.registryDigest, gatePlan.candidateIdentity, gatePlan.profileId,
        gatePlan.profileKind, gatePlan.gate, gatePlan.planDigest, certificationPlan.planDigest))
    (readinessRefused "gate-manifest-plan-mismatch"
      ("gates." ++ toString gatePlan.gate.1 ++ ".resultManifest")
      "result manifest is not bound to the exact candidate/profile/gate plan")
  refuseIf ((observedResults manifest).map Prod.fst ≠ (plannedRails gatePlan).map Prod.fst)
    (readinessRefused "gate-manifest-catalog-mismatch"
      ("gates." ++ toString gatePlan.gate.1 ++ ".resultManifest.railResults")
      "result manifest must preserve the exact complete ordered rail catalog")
  (plannedRails gatePlan).forM fun item => requirePlannedResult manifest item.1 item.2

/-- How a result is shown, by the rail's posture. -/
def railState (rail : CompiledRail) : Option RailResult → Option RailReadinessState
  | some result =>
    match rail.posture, result.status with
    | .reportOnly, .pass => some .reportOnlyPass
    | .reportOnly, .fail => some .reportOnlyFail
    | _, .pass => some .pass
    | _, .fail => some .fail
    | _, .blocked => some .blocked
    | _, .notApplicable => some .notApplicable
  | none => if rail.applicability.applicable then none else some .notApplicable

/-- What is shown of a rail and its result. -/
def compileRail (rail : CompiledRail) (result : Option RailResult) : RailReadinessProjection where
  rail := rail.identity
  posture := rail.posture
  applicability := rail.applicability.applicable
  state := railState rail result
  code := result.map RailResult.code
  correctiveOwner := rail.correctiveOwner
  blockedBy := (result.map RailResult.blockedBy).getD []
  evidence := (result.map RailResult.evidence).getD []

/-- Every planned rail, with its result where there is one. -/
def compileRails (gatePlan : GatePlan) (manifest : Option GateResultManifest) :
    List RailReadinessProjection :=
  let results := (manifest.map observedResults).getD []
  gatePlan.rails.map fun rail => compileRail rail (results.lookup rail.identity.key)

/-! ## The observations one by one -/

section source
variable (source : CloseoutReadinessInput contentDigest)

/-- All observations have the revision of the source. -/
def requireOneRevision : Except ReadinessRefusal Unit :=
  let observations := [source.profile.revision, source.lifecycle.revision] ++
    source.gates.map GateReadinessObservation.revision ++
    source.diagnostics.map DiagnosticReadinessObservation.revision
  refuseIf (∃ item ∈ observations, item ≠ source.revision)
    (readinessRefused "mixed-generation-readiness" "revision"
      "all readiness observations must belong to one generation and revision")

/-- The admission binds the exact repository, candidate, profile and plan. -/
def BindsPlan (admission : CertificationAdmissionManifest contentDigest) (repositoryId : String)
    (plan : CertificationPlan) : Prop :=
  let envelope := admission.semanticEnvelope
  (envelope.repositoryId, envelope.candidateCodeTree.1, envelope.profileId,
      envelope.certificationPlanDigest, envelope.registryDigest,
      envelope.gates.map AdmissionGateIdentity.gatePlanDigest) =
    (repositoryId, plan.candidateIdentity, plan.profileId, plan.planDigest, plan.registryDigest,
      plan.gates.map GatePlan.planDigest)

instance (admission : CertificationAdmissionManifest contentDigest) (repositoryId : String)
    (plan : CertificationPlan) : Decidable (BindsPlan admission repositoryId plan) :=
  inferInstanceAs (Decidable (_ = _))

/-- The admission goes with the lifecycle state and the plan. -/
def requireAdmission : Except ReadinessRefusal Unit :=
  let lifecycle := source.lifecycle.state
  match source.admission with
  | none =>
    inOrder
      [ refuseIf (lifecycle ∉ [.admissionPending, .admissionRefused])
          (readinessRefused "admission-authority-missing" "admission"
            "post-admission lifecycle state requires exact admission authority"),
        refuseIf (∃ item ∈ source.gates, item.state.Started)
          (readinessRefused "gate-started-before-admission" "gates"
            "no certifying gate may start before exact admission") ]
  | some admission =>
    inOrder
      [ refuseIf (¬BindsPlan admission source.repositoryId source.certificationPlan)
          (readinessRefused "admission-plan-mismatch" "admission"
            "admission does not bind the exact repository, candidate, profile, and R11 plan"),
        refuseIf (lifecycle ∈ [.admissionPending, .admissionRefused])
          (readinessRefused "admission-lifecycle-contradiction" "lifecycle.state"
            "current admission authority contradicts a pre-admission lifecycle state") ]

/-- The repository plan is of the same candidate and profile. -/
def requireRepositoryPlanIdentity (repositoryPlan : RepositoryProfilePlan) :
    Except ReadinessRefusal Unit :=
  refuseIf ((repositoryPlan.candidateIdentity, repositoryPlan.selectionId) ≠
      (source.certificationPlan.candidateIdentity, source.certificationPlan.profileId))
    (readinessRefused "repository-plan-identity-mismatch" "profile.repositoryPlan"
      "R22 plan candidate and selection must match the R11 plan")

/-- Without an admission the assertion fails. -/
def repositoryPlanIsAdmitted (repositoryPlan : RepositoryProfilePlan) :
    Except ReadinessRefusal Bool :=
  match source.admission with
  | none => .error (.raised "AssertionError")
  | some admission =>
    let envelope := admission.semanticEnvelope
    .ok (repositoryPlan.profileDigest = envelope.admittedProfileDigest ∧
      repositoryPlan.gates.map (fun gate => some gate.planDigest) =
        (envelope.gates.take 4).map AdmissionGateIdentity.repositoryGatePlanDigest)

/-- A repository plan is there just where the profile is resolved. -/
def requireProfileShape : Except ReadinessRefusal Unit :=
  if source.profile.state ∈ [.unresolved, .invalid] then
    refuseIf source.profile.repositoryPlan.isSome
      (readinessRefused "profile-state-contradiction" "profile"
        "unresolved or invalid profile cannot carry an admitted R22 plan")
  else
    refuseIf (source.admission.isNone ∨ source.profile.repositoryPlan.isNone)
      (readinessRefused "profile-authority-missing" "profile"
        "admitted-current and changed require exact admission and R22 plan authority")

/-- The repository plan of the profile is the admitted one. -/
def profileIsCurrent : Except ReadinessRefusal Bool :=
  match source.profile.repositoryPlan with
  | none => .ok false
  | some repositoryPlan => do
    requireRepositoryPlanIdentity source repositoryPlan
    repositoryPlanIsAdmitted source repositoryPlan

/-- What is shown of the profile, once its state agrees. -/
def compileProfile : Except ReadinessRefusal ProfileReadinessProjection := do
  requireProfileShape source
  let current ← profileIsCurrent source
  refuseIf (¬(source.profile.state = .admittedCurrent ↔ current = true))
    (readinessRefused "profile-state-contradiction" "profile.state"
      "profile state does not match the exact admitted R22 plan identity")
  return {
    state := source.profile.state
    profileId := source.certificationPlan.profileId
    repositoryPlanDigest := source.profile.repositoryPlan.map RepositoryProfilePlan.planDigest
    admittedProfileDigest :=
      source.admission.map fun admission => admission.semanticEnvelope.admittedProfileDigest }

end source

/-- The results of a gate agree with its state. -/
def requireGateManifest (certificationPlan : CertificationPlan) (gatePlan : GatePlan)
    (state : GateReadinessState) : Option GateResultManifest → Except ReadinessRefusal Unit
  | none => .ok ()
  | some manifest => do
    requireManifest certificationPlan gatePlan manifest
    refuseIf (state ≠ if manifest.disposition = .green then .passed else .failed)
      (readinessRefused "gate-result-state-contradiction"
        ("gates." ++ toString gatePlan.gate.1 ++ ".state")
        "gate state must preserve the typed result disposition")

/-- A current certificate is that of the green result that is shown. -/
def requireGateCertificate (gatePlan : GatePlan)
    (observation : GateReadinessObservation contentDigest) : Except ReadinessRefusal Unit :=
  let path := "gates." ++ toString gatePlan.gate.1 ++ ".certificate"
  if observation.certificateState = .currentGreen then
    match observation.state, observation.resultManifest, observation.certificate with
    | .passed, some manifest, some certificate =>
      refuseIf (certificate.semanticEnvelope.resultManifestDigest ≠ manifest.manifestDigest)
        (readinessRefused "certificate-result-mismatch" path
          "certificate does not bind the projected gate result manifest")
    | _, _, _ => .error (readinessRefused "current-certificate-state-contradiction" path
        "current-green requires the exact complete green result and certificate")
  else .ok ()

/-- What is shown of one gate. -/
def compileGate (certificationPlan : CertificationPlan) (gatePlan : GatePlan)
    (observation : GateReadinessObservation contentDigest) :
    Except ReadinessRefusal GateReadinessProjection := do
  refuseIf (observation.gate ≠ gatePlan.gate)
    (readinessRefused "gate-catalog-order-mismatch" ("gates." ++ toString gatePlan.gate.1)
      "gate observations must follow exact Gate 1-5 order")
  refuseIf (observation.genericTerminalReplacement = true)
    (readinessRefused "generic-terminal-replacement" ("gates." ++ toString gatePlan.gate.1)
      "generic worker failure cannot replace typed terminal rail results")
  requireGateManifest certificationPlan gatePlan observation.state observation.resultManifest
  requireGateCertificate gatePlan observation
  return {
    gate := gatePlan.gate
    gatePlanDigest := gatePlan.planDigest
    state := observation.state
    blockedBy := observation.blockedBy
    rails := compileRails gatePlan observation.resultManifest
    resultManifestDigest := observation.resultManifest.map GateResultManifest.manifestDigest
    certificateState := observation.certificateState
    certificateDigest := observation.certificate.map GateCertificate.certificateDigest }

/-- The gates in the order of the plan; there are five of each. -/
def compileGates (source : CloseoutReadinessInput contentDigest) :
    Except ReadinessRefusal (List GateReadinessProjection) :=
  (source.certificationPlan.gates.zip source.gates).mapM fun item =>
    compileGate source.certificationPlan item.1 item.2

/-! ## The observations together -/

/-- The certificates that are current and green. -/
def currentCertificates (source : CloseoutReadinessInput contentDigest) :
    List (GateCertificate contentDigest) :=
  (source.gates.filter fun item => item.certificateState = .currentGreen).filterMap
    GateReadinessObservation.certificate

/-- The Gate-5 inputs of finalization, where there are, and those of readiness. -/
def currentFiveInputs (source : CloseoutReadinessInput contentDigest) :
    Except ReadinessRefusal (Option GateFiveSemanticInputs) :=
  match source.finalizationInputs with
  | none => .ok source.gateFiveInputs
  | some inputs =>
    if source.gateFiveInputs.isSome ∧ source.gateFiveInputs ≠ some inputs.gateFiveInputs then
      .error (readinessRefused "gate-five-input-contradiction" "gateFiveInputs"
        "readiness and finalization name different current Gate-5 inputs")
    else .ok (some inputs.gateFiveInputs)

/-- The current certificates validate as a chain. -/
def requireValidChain (source : CloseoutReadinessInput contentDigest)
    (gateFiveInputs : Option GateFiveSemanticInputs) : Except ReadinessRefusal Unit :=
  match source.admission with
  | none => .error (.raised "AssertionError")
  | some admission =>
    match validateCertificateChain admission (currentCertificates source) gateFiveInputs none with
    | .error refusal => .error (.refused refusal)
    | .ok _ => .ok ()

/-- The chain is checked where a certificate is current. -/
def requireCurrentCertificateChain (source : CloseoutReadinessInput contentDigest) :
    Except ReadinessRefusal Unit :=
  if currentCertificates source = [] then .ok ()
  else do
    let gateFiveInputs ← currentFiveInputs source
    requireValidChain source gateFiveInputs

/-- Passed, with a current-green certificate. -/
def Proven (gate : GateReadinessProjection) : Prop :=
  gate.state = .passed ∧ gate.certificateState = .currentGreen

instance : DecidablePred Proven := fun _ => inferInstanceAs (Decidable (_ ∧ _))

/-- What the gates before one leave open to it. -/
def requireGateBarrier (earlier : List GateReadinessProjection) (gate : GateReadinessProjection) :
    Except ReadinessRefusal Unit :=
  inOrder
    [ refuseIf ((∃ item ∈ earlier, item.state = .failed) ∧
          gate.state ∉ [.notStarted, .blocked, .invalidated])
        (readinessRefused "red-gate-barrier-violated"
          ("gates." ++ toString gate.gate.1 ++ ".state")
          "a red Gate 1-4 prevents every later gate start"),
      refuseIf (gate.state.Started ∧ ∃ item ∈ earlier, ¬Proven item)
        (readinessRefused "gate-prerequisite-not-current"
          ("gates." ++ toString gate.gate.1 ++ ".state")
          "a gate cannot start before every earlier gate is passed and current-green") ]

/-- The barrier before every gate. -/
def requireGateBarriers (gates : List GateReadinessProjection) : Except ReadinessRefusal Unit :=
  gates.zipIdx.forM fun item => requireGateBarrier (gates.take item.2) item.1

/-- A diagnostic plan has the rails of the certifying one. -/
def requireSameRails (certifying diagnostic : List CompiledRail) : Except ReadinessRefusal Unit :=
  let contract := fun rail : CompiledRail => (rail.identity, rail.posture, rail.applicability)
  refuseIf (diagnostic.map contract ≠ certifying.map contract)
    (readinessRefused "diagnostic-rail-contract-mismatch" "diagnostics"
      "diagnostic preview changed rail identity, posture, or applicability semantics")

/-- The diagnostic result against its gate plan and the certifying one. -/
def compileDiagnosticGate (plan : CertificationPlan) (gatePlan certifyingGate : Option GatePlan)
    (manifest : GateResultManifest) : Except ReadinessRefusal DiagnosticReadinessProjection :=
  match gatePlan, certifyingGate with
  | none, _ => .error (readinessRefused "diagnostic-gate-unplanned" "diagnostics"
      "diagnostic result gate is absent from its exact plan")
  | some gatePlan, certifyingGate => do
    requireManifest plan gatePlan manifest
    match certifyingGate with
    | none => .error (.raised "IndexError")
    | some certifyingGate =>
      requireSameRails certifyingGate.rails gatePlan.rails
      return {
        certificationPlanDigest := plan.planDigest
        gate := manifest.gate
        disposition := manifest.disposition
        rails := compileRails gatePlan (some manifest)
        resultManifestDigest := manifest.manifestDigest }

/-- What is shown of one diagnostic run. -/
def compileDiagnostic (source : CloseoutReadinessInput contentDigest)
    (observation : DiagnosticReadinessObservation) :
    Except ReadinessRefusal DiagnosticReadinessProjection := do
  let plan := observation.plan
  let manifest := observation.resultManifest
  refuseIf (plan.profileKind ≠ .diagnostic ∨ manifest.altitude ≠ .diagnostic)
    (readinessRefused "diagnostic-promotion" "diagnostics"
      "diagnostic results must remain explicitly non-certifying")
  refuseIf (plan.candidateIdentity ≠ source.certificationPlan.candidateIdentity)
    (readinessRefused "diagnostic-candidate-mismatch" "diagnostics"
      "diagnostic and certifying views must name the same exact candidate")
  compileDiagnosticGate plan (plan.gates.find? fun gate => gate.gate = manifest.gate)
    source.certificationPlan.gates[manifest.gate.1 - 1]? manifest

/-- The diagnostic runs, in canonical order. -/
def compileDiagnostics (source : CloseoutReadinessInput contentDigest) :
    Except ReadinessRefusal (List DiagnosticReadinessProjection) := do
  let projections ← source.diagnostics.mapM (compileDiagnostic source)
  refuseIf (¬Canonical.IsCanonical (fun item : DiagnosticReadinessProjection =>
      toLex (item.certificationPlanDigest, item.gate.1))
      (fun item => (item.certificationPlanDigest, item.gate.1)) projections)
    (readinessRefused "diagnostic-catalog-noncanonical" "diagnostics"
      "diagnostic plan/gate identities must be unique and canonical")
  return projections

/-! ## Readiness -/

/-- Every gate is proven on a current profile. -/
def certificationReady (source : CloseoutReadinessInput contentDigest)
    (gates : List GateReadinessProjection) (profile : ProfileReadinessProjection) : Bool :=
  source.admission.isSome && decide (profile.state = .admittedCurrent) &&
    gates.all fun gate => decide (Proven gate)

/-- A finalized closeout has a current authority. -/
def requireFinalized (source : CloseoutReadinessInput contentDigest) :
    Except ReadinessRefusal Unit :=
  match source.finalizationAuthority, source.finalizationInputs, source.admission with
  | some authority, some inputs, some admission =>
    match validateFinalizationCurrentness authority admission
        (source.gates.filterMap GateReadinessObservation.certificate) inputs none with
    | .error refusal => .error (.refused refusal)
    | .ok _ => .ok ()
  | some _, some _, none => .error (.raised "AssertionError")
  | _, _, _ => .error (readinessRefused "finalization-authority-missing" "finalizationAuthority"
      "finalized state requires current transactional authority and inputs")

/-- The lifecycle is not ahead of the gates. -/
def requireLifecycle (source : CloseoutReadinessInput contentDigest) (ready : Bool) :
    Except ReadinessRefusal Unit := do
  refuseIf (source.lifecycle.state ∈ [.finalizationPending, .finalizationRunning, .finalized] ∧
      ready = false)
    (readinessRefused "finalization-before-certification" "lifecycle.state"
      "finalization cannot proceed before exact current-green Gates 1-5")
  if source.lifecycle.state = .finalized then requireFinalized source
  else
    refuseIf source.finalizationAuthority.isSome
      (readinessRefused "finalization-authority-state-contradiction" "finalizationAuthority"
        "current finalization authority is visible only in finalized state")

/-- The projection digests its own payload. -/
def compileCloseoutReadiness (payloadDigest : CloseoutReadinessPayload → String)
    (source : CloseoutReadinessInput contentDigest) :
    Except ReadinessRefusal CloseoutReadinessProjection := do
  let plan := source.certificationPlan
  requireCertifyingPlan plan
  requireOneRevision source
  requireAdmission source
  let profile ← compileProfile source
  let gates ← compileGates source
  requireCurrentCertificateChain source
  requireGateBarriers gates
  let diagnostics ← compileDiagnostics source
  let ready := certificationReady source gates profile
  requireLifecycle source ready
  let payload : CloseoutReadinessPayload := {
    revision := source.revision
    repositoryId := source.repositoryId
    candidateIdentity := plan.candidateIdentity
    registryDigest := plan.registryDigest
    certificationPlanDigest := plan.planDigest
    profile := profile
    lifecycle := {
      state := source.lifecycle.state
      blockedBy := source.lifecycle.blockedBy
      code := source.lifecycle.code
      correctiveOwner := source.lifecycle.correctiveOwner
      evidence := source.lifecycle.evidence }
    gates := gates
    diagnostics := diagnostics
    certificationReady := ready
    finalizationAuthorityDigest :=
      source.finalizationAuthority.map FinalizationCertificateAuthority.authorityDigest }
  return ⟨payload, payloadDigest payload⟩

end AgentsRemember.Certification
