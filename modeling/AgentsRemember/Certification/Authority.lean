import AgentsRemember.Certification.Records

/-!
# Certification — Authority

Issuing a gate certificate, validating a chain of them, and the finalization
authority over a whole chain. Issuing and validating assemble the facts that
they compare each in its own way.
-/

namespace AgentsRemember.Certification

open Checks

variable {contentDigest : Content → String}

/-! ## Inputs -/

/-- The identity of a gate in an admission; every gate has one. -/
def admittedGateIdentity (admission : CertificationAdmissionManifest contentDigest)
    (gate : GateId) : Except Refusal AdmissionGateIdentity :=
  match admission.semanticEnvelope.gates.find? fun item => item.gate = gate with
  | some item => .ok item
  | none => .error (.value "StopIteration")

/-- One identity with two digests. -/
def semanticInputConflict (item : CertificateInputIdentity) : Refusal :=
  .contract "certificate semantic input compilation failed" "semantic-input-conflict"
    ("semanticInputs." ++ item.inputKind ++ "." ++ item.inputId)
    "one semantic input identity resolved to conflicting content digests"

/-- The inputs sorted, a repetition dropped and a conflict refused. -/
def canonicalizeCertificateInputs (inputs : List CertificateInputIdentity) :
    Except Refusal (List CertificateInputIdentity) :=
  Canonical.canonicalize CertificateInputIdentity.order CertificateInputIdentity.key
    semanticInputConflict inputs

/-- The digest of a gate plan without its own digest and that of the registry. -/
def gateSemanticDigest (contentDigest : Content → String) (gate : GatePlan) : String :=
  contentDigest (.gatePlan gate.toGatePlanSemantics)

/-- What the memory gate consumes. -/
def gateFiveInputIdentities (contentDigest : Content → String) (inputs : GateFiveSemanticInputs) :
    Except Refusal (List CertificateInputIdentity) :=
  canonicalizeCertificateInputs
    ([⟨"memory-tree", inputs.memoryTree.1.kind, contentDigest (.candidate inputs.memoryTree.1)⟩,
      ⟨"memory-scope-plan", "affected-closure", inputs.affectedClosurePlanDigest⟩,
      ⟨"memory-checker-registry", "checker-registry", inputs.memoryCheckerRegistryDigest⟩,
      ⟨"candidate-pair-authority", "code-memory-pair", inputs.candidatePairAuthorityDigest⟩] ++
      inputs.coherenceSubrecords.map fun item =>
        ⟨"coherence-subrecord", item.subrecordId, item.contentDigest⟩)

/-- No inputs where the gate has none. -/
def memoryInputIdentities (contentDigest : Content → String) :
    Option GateFiveSemanticInputs → Except Refusal (List CertificateInputIdentity)
  | none => .ok []
  | some inputs => gateFiveInputIdentities contentDigest inputs

/-- What a gate consumes: its admitted inputs, and with memory inputs those as well. -/
def gateInputs (contentDigest : Content → String) (admitted : AdmissionGateIdentity)
    (gateFiveInputs : Option GateFiveSemanticInputs) :
    Except Refusal (List CertificateInputIdentity) := do
  let memory ← memoryInputIdentities contentDigest gateFiveInputs
  canonicalizeCertificateInputs (admitted.semanticInputs ++ memory)

/-! ## Validating -/

/-- A refusal of a chain. -/
def refused (code path findingDetail : String) : Refusal :=
  .contract "gate certificate chain refused" code path findingDetail

/-- A refusal of a publication. -/
def publicationRefused (code path findingDetail : String) : Refusal :=
  .contract "gate certificate publication refused" code path findingDetail

/-- What is retained is a prefix of the chain. -/
def requireRetainedPrefix (certificates : List (GateCertificate contentDigest))
    (retainedCertificates : Option (List GateCertificateIdentity)) :
    Except Refusal (List GateCertificateIdentity) :=
  let retained := retainedCertificates.getD []
  if retained ≠ (certificates.take retained.length).map GateCertificate.identity then
    .error (refused "retained-certificate-prefix-invalid" "retainedCertificates"
      "retained certificates must be the exact current chain prefix")
  else .ok retained

/-- The facts that a certificate is compared in. -/
structure GateFacts where
  repositoryId : String
  candidateCodeTree : GitTreeIdentity
  gateSemanticDigest : String
  repositoryGatePlanDigest : Option String
  semanticInputs : List CertificateInputIdentity
  directPredecessors : List GateCertificateIdentity
  gateFiveInputs : Option GateFiveSemanticInputs
deriving DecidableEq

/-- The facts a certificate states. -/
def GateCertificateSemanticEnvelope.facts (envelope : GateCertificateSemanticEnvelope) :
    GateFacts where
  repositoryId := envelope.repositoryId
  candidateCodeTree := envelope.candidateCodeTree
  gateSemanticDigest := envelope.gateSemanticDigest
  repositoryGatePlanDigest := envelope.repositoryGatePlanDigest
  semanticInputs := envelope.semanticInputs
  directPredecessors := envelope.directPredecessors
  gateFiveInputs := envelope.gateFiveInputs

/-- The memory inputs that a certificate of the gate is held to: the fifth needs them. -/
def currentGateFiveInputs (gate : GateId) (gateFiveInputs : Option GateFiveSemanticInputs) :
    Except Refusal (Option GateFiveSemanticInputs) :=
  if gate.1 = 5 then
    match gateFiveInputs with
    | none => .error (refused "gate-five-current-inputs-missing" "gateFiveInputs"
        "current Gate-5 memory inputs are required to prove certificate reuse")
    | some inputs => .ok (some inputs)
  else .ok none

/-- What an admission expects of a certificate that is not retained. -/
def expectedFacts (admission : CertificationAdmissionManifest contentDigest) (gate : GateId)
    (predecessors : List (GateCertificate contentDigest))
    (gateFiveInputs : Option GateFiveSemanticInputs) : Except Refusal GateFacts := do
  let admitted ← admittedGateIdentity admission gate
  let memory ← currentGateFiveInputs gate gateFiveInputs
  let inputs ← gateInputs contentDigest admitted memory
  return {
    repositoryId := admission.semanticEnvelope.repositoryId
    candidateCodeTree := admission.semanticEnvelope.candidateCodeTree
    gateSemanticDigest := admitted.gateSemanticDigest
    repositoryGatePlanDigest := admitted.repositoryGatePlanDigest
    semanticInputs := inputs
    directPredecessors := predecessors.map GateCertificate.identity
    gateFiveInputs := memory }

/-- One certificate against the admission, for its place in the chain. -/
def requireCurrentCertificate (admission : CertificationAdmissionManifest contentDigest)
    (certificate : GateCertificate contentDigest)
    (predecessors : List (GateCertificate contentDigest))
    (gateFiveInputs : Option GateFiveSemanticInputs)
    (retainedCertificates : List GateCertificateIdentity) : Except Refusal Unit :=
  let envelope := certificate.semanticEnvelope
  let path := "certificates." ++ toString envelope.gate.1
  -- a retained certificate is not measured against the current inputs
  if certificate.identity ∈ retainedCertificates then
    inOrder
      [ refuseIf (envelope.repositoryId ≠ admission.semanticEnvelope.repositoryId)
          (refused "retained-certificate-repository-mismatch" (path ++ ".repositoryId")
            "retained certificate must remain bound to the admitted repository"),
        refuseIf (envelope.directPredecessors ≠ predecessors.map GateCertificate.identity)
          (refused "retained-certificate-predecessor-mismatch" (path ++ ".directPredecessors")
            "retained certificate must preserve its exact predecessor lineage") ]
  else do
    let expected ← expectedFacts admission envelope.gate predecessors gateFiveInputs
    refuseIf (envelope.facts ≠ expected)
      (refused "stale-gate-certificate" path
        "certificate does not match the current gate-local inputs and exact predecessors")

/-- Every certificate of a list against those in front of it. -/
def requireCurrentCertificates (admission : CertificationAdmissionManifest contentDigest)
    (gateFiveInputs : Option GateFiveSemanticInputs)
    (retainedCertificates : List GateCertificateIdentity)
    (certificates : List (GateCertificate contentDigest)) : Except Refusal Unit :=
  certificates.zipIdx.forM fun (certificate, index) =>
    requireCurrentCertificate admission certificate (certificates.take index) gateFiveInputs
      retainedCertificates

/-- The predecessors are the certificates of all earlier gates. -/
def requireCurrentPredecessors (admission : CertificationAdmissionManifest contentDigest)
    (gate : GateId) (predecessors : List (GateCertificate contentDigest))
    (retainedCertificates : List GateCertificateIdentity) : Except Refusal Unit := do
  refuseIf (predecessors.map (fun item => item.semanticEnvelope.gate.1) ≠ earlierGates gate.1)
    (publicationRefused "predecessor-certificate-mismatch" "directPredecessors"
      "caller must provide the exact complete earlier-gate certificate prefix")
  requireCurrentCertificates admission none retainedCertificates predecessors

/-- Every certificate of the chain, in order, each against those before it. -/
def validateCertificateChain (admission : CertificationAdmissionManifest contentDigest)
    (certificates : List (GateCertificate contentDigest))
    (gateFiveInputs : Option GateFiveSemanticInputs)
    (retainedCertificates : Option (List GateCertificateIdentity)) :
    Except Refusal (List (GateCertificate contentDigest)) := do
  refuseIf (certificates.map (fun item => item.semanticEnvelope.gate.1) ≠
      List.range' 1 certificates.length)
    (refused "certificate-prefix-invalid" "certificates"
      "certificate chain must be one exact ordered prefix beginning at Gate 1")
  let retained ← requireRetainedPrefix certificates retainedCertificates
  requireCurrentCertificates admission gateFiveInputs retained certificates
  return certificates

/-! ## Issuing -/

/-- The results are green and of the very plan and candidate. -/
def requireGateResultAuthority (admission : CertificationAdmissionManifest contentDigest)
    (gateIdentity : AdmissionGateIdentity) (gatePlan : GatePlan) (manifest : GateResultManifest) :
    Except Refusal Unit :=
  let envelope := admission.semanticEnvelope
  refuseIf
    ((gatePlan.gate, gatePlan.planDigest, gateSemanticDigest contentDigest gatePlan,
        manifest.registryDigest, manifest.candidateIdentity, manifest.profileId,
        manifest.certificationPlanDigest) ≠
      (gateIdentity.gate, gateIdentity.gatePlanDigest, gateIdentity.gateSemanticDigest,
        envelope.registryDigest, envelope.candidateCodeTree.1, envelope.profileId,
        envelope.certificationPlanDigest) ∨
      manifest.gatePlanDigest ≠ gatePlan.planDigest)
    (publicationRefused "result-manifest-authority-mismatch"
      ("gates." ++ toString gatePlan.gate.1)
      "result manifest is not bound to the exact admitted candidate and gate plan")

/-- The artifacts that earlier certificates have, by id. -/
def availableArtifacts (predecessors : List (GateCertificate contentDigest)) :
    List (String × List (GateCertificate contentDigest × CertificateArtifactInventory)) :=
  Keyed.grouped (predecessors.flatMap fun certificate =>
    certificate.semanticEnvelope.artifactInventory.map fun artifact =>
      (artifact.artifactId, certificate, artifact))

/-- The artifacts that applicable rails require and no rail of the gate produces. -/
def requiredArtifacts (gatePlan : GatePlan) (manifest : GateResultManifest) : List String :=
  let producedHere := manifest.railResults.flatMap fun result =>
    result.artifacts.map RailArtifactResult.artifactId
  Canonical.sorted id (((gatePlan.rails.filter fun rail => rail.applicability.applicable).flatMap
    fun rail => rail.requiredArtifacts.filter fun artifact => artifact ∉ producedHere).dedup)

/-- An artifact of an earlier certificate, as a later one consumes it. -/
def consumedArtifact (certificate : GateCertificate contentDigest)
    (artifact : CertificateArtifactInventory) : ConsumedArtifactIdentity where
  artifactId := artifact.artifactId
  producerGate := certificate.semanticEnvelope.gate
  producerCertificateDigest := certificate.certificateDigest
  sha256 := artifact.sha256
  size := artifact.size

/-- Each consumed artifact is bound to the certificate that made it. -/
def bindConsumedArtifacts (gatePlan : GatePlan) (manifest : GateResultManifest)
    (predecessors : List (GateCertificate contentDigest)) :
    Except Refusal (List ConsumedArtifactIdentity) :=
  (requiredArtifacts gatePlan manifest).mapM fun artifactId =>
    match ((availableArtifacts predecessors).lookup artifactId).getD [] with
    | [(certificate, artifact)] => .ok (consumedArtifact certificate artifact)
    | _ => .error (publicationRefused "required-artifact-not-exact"
        ("consumedArtifacts." ++ artifactId)
        "required artifact must resolve to exactly one earlier green certificate")

/-- The rails of a result, in canonical order. -/
def railInventory (manifest : GateResultManifest) : List CertificateRailInventory :=
  Canonical.sorted (fun item : CertificateRailInventory => item.rail.key)
    (manifest.railResults.map fun result =>
      ⟨result.rail, result.resultDigest, result.status, result.code, result.correctiveOwner⟩)

/-- The artifacts of a result, in canonical order. -/
def artifactInventory (manifest : GateResultManifest) : List CertificateArtifactInventory :=
  Canonical.sorted CertificateArtifactInventory.key
    (manifest.railResults.flatMap fun result => result.artifacts.map fun artifact =>
      ⟨result.rail, artifact.artifactId, artifact.sha256, artifact.size, artifact.evidenceRef⟩)

/-- The evidence of a result, in canonical order. -/
def evidenceInventory (manifest : GateResultManifest) : List CertificateEvidenceInventory :=
  Canonical.sorted CertificateEvidenceInventory.key
    (manifest.railResults.flatMap fun result => result.evidence.map fun evidence =>
      ⟨result.rail, evidence.evidenceId, evidence.sha256, evidence.size, evidence.reference⟩)

/-- A certificate over an envelope that stands its own check. -/
def GateCertificate.over (contentDigest : Content → String)
    (envelope : GateCertificateSemanticEnvelope) (provenance : CreationProvenance) :
    Except Refusal (GateCertificate contentDigest) :=
  match h : envelope.check with
  | .error refusal => .error refusal
  | .ok () => .ok ⟨envelope, contentDigest (.certificate envelope), provenance, h, rfl⟩

/-- `compile_gate_certificate`, its checks in their order. -/
def compileGateCertificate (admission : CertificationAdmissionManifest contentDigest)
    (gatePlan : GatePlan) (resultManifest : GateResultManifest)
    (predecessors : List (GateCertificate contentDigest))
    (issuance : GateCertificateIssuanceContext)
    (retainedCertificates : Option (List GateCertificateIdentity)) :
    Except Refusal (GateCertificate contentDigest) := do
  let gateIdentity ← admittedGateIdentity admission gatePlan.gate
  requireGateResultAuthority admission gateIdentity gatePlan resultManifest
  let retained ← requireRetainedPrefix predecessors retainedCertificates
  requireCurrentPredecessors admission gatePlan.gate predecessors retained
  refuseIf (resultManifest.disposition ≠ .green)
    (publicationRefused "non-green-result-manifest" "resultManifest.disposition"
      "only a complete green gate result can publish a reusable certificate")
  refuseIf (resultManifest.profileKind ≠ .certifying ∨ resultManifest.altitude ≠ .certifying)
    (publicationRefused "diagnostic-certificate-promotion" "resultManifest.altitude"
      "diagnostic or mixed-altitude results cannot publish a green certificate")
  refuseIf (¬(gatePlan.gate.1 = 5 ↔ issuance.gateFiveInputs.isSome))
    (publicationRefused "gate-five-input-mismatch" "gateFiveInputs"
      "Gate 5 requires exact memory inputs and Gates 1-4 forbid them")
  let consumed ← bindConsumedArtifacts gatePlan resultManifest predecessors
  refuseIf (gatePlan.gate.1 = 3 ∧ (∃ rail ∈ gatePlan.rails, rail.applicability.applicable) ∧
      (consumed = [] ∨ ∃ item ∈ consumed, item.producerGate.1 ≠ 2))
    (publicationRefused "gate-three-suite-artifacts-unbound" "consumedArtifacts"
      "Gate 3 must bind at least one exact artifact from the green Gate-2 certificate")
  let semanticInputs ← gateInputs contentDigest gateIdentity issuance.gateFiveInputs
  GateCertificate.over contentDigest
    { gate := gatePlan.gate
      repositoryId := admission.semanticEnvelope.repositoryId
      candidateCodeTree := admission.semanticEnvelope.candidateCodeTree
      admissionDigest := admission.admissionDigest
      admittedProfileDigest := admission.semanticEnvelope.admittedProfileDigest
      registryDigest := admission.semanticEnvelope.registryDigest
      gatePlanDigest := gateIdentity.gatePlanDigest
      gateSemanticDigest := gateIdentity.gateSemanticDigest
      repositoryGatePlanDigest := gateIdentity.repositoryGatePlanDigest
      directPredecessors := predecessors.map GateCertificate.identity
      semanticInputs := semanticInputs
      consumedArtifacts := consumed
      resultManifestDigest := resultManifest.manifestDigest
      railInventory := railInventory resultManifest
      artifactInventory := artifactInventory resultManifest
      evidenceInventory := evidenceInventory resultManifest
      gateFiveInputs := issuance.gateFiveInputs }
    issuance.provenance

/-! ## Finalization -/

/-- The authority over an envelope that passes its check. -/
def FinalizationCertificateAuthority.over (contentDigest : Content → String)
    (envelope : FinalizationSemanticEnvelope) (provenance : CreationProvenance) :
    Except Refusal (FinalizationCertificateAuthority contentDigest) :=
  match h : envelope.check with
  | .error refusal => .error refusal
  | .ok () => .ok ⟨envelope, contentDigest (.finalization envelope), provenance, h, rfl⟩

/-- The authority over a whole chain and the inputs of today. -/
def compileFinalizationAuthority (admission : CertificationAdmissionManifest contentDigest)
    (certificates : List (GateCertificate contentDigest))
    (currentInputs : FinalizationCurrentInputs) (provenance : CreationProvenance)
    (retainedCertificates : Option (List GateCertificateIdentity)) :
    Except Refusal (FinalizationCertificateAuthority contentDigest) := do
  let chain ← validateCertificateChain admission certificates (some currentInputs.gateFiveInputs)
    retainedCertificates
  refuseIf (chain.length ≠ 5)
    (.contract "finalization authority publication refused" "certificate-chain-incomplete"
      "certificates" "transactional finalization requires exact green Gates 1-5")
  FinalizationCertificateAuthority.over contentDigest
    { repositoryId := admission.semanticEnvelope.repositoryId
      candidateCodeTree := admission.semanticEnvelope.candidateCodeTree
      candidateMemoryTree := currentInputs.gateFiveInputs.memoryTree
      admissionDigest := admission.admissionDigest
      certificates := chain.map GateCertificate.identity
      candidatePairAuthorityDigest := currentInputs.gateFiveInputs.candidatePairAuthorityDigest
      taskIntentAuthorityDigest := currentInputs.taskIntentAuthorityDigest
      journalAuthorityDigest := currentInputs.journalAuthorityDigest }
    provenance

/-- An authority is compiled again and compared. -/
def validateFinalizationCurrentness (authority : FinalizationCertificateAuthority contentDigest)
    (admission : CertificationAdmissionManifest contentDigest)
    (certificates : List (GateCertificate contentDigest))
    (currentInputs : FinalizationCurrentInputs)
    (retainedCertificates : Option (List GateCertificateIdentity)) :
    Except Refusal (FinalizationCertificateAuthority contentDigest) := do
  let expected ← compileFinalizationAuthority admission certificates currentInputs
    authority.provenance retainedCertificates
  refuseIf (authority ≠ expected)
    (.contract "finalization authority is stale" "finalization-authority-mismatch"
      "finalizationAuthority"
      "current certificates, candidate pair, task intent, or journal authority changed")
  return authority

end AgentsRemember.Certification
