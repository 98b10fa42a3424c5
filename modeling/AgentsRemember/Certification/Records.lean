import Mathlib.Data.String.Basic
import Mathlib.Data.Prod.Lex
import AgentsRemember.Foundation.Canonical
import AgentsRemember.Foundation.Checks

/-!
# Certification — Records

The records of the five closeout gates: plans and results, the admission that
freezes a candidate, and the certificates. A digest is a parameter: it takes one
of the contents that the contracts digest to a text.

The patterns and lengths of single fields are left out where what arrives has
passed the same ones before; the bounds and the canonical order that a
certificate is held to when it is built are kept (`check`).
-/

namespace AgentsRemember.Certification

open Checks

/-- Refusals: of a contract, with its finding, or of the value itself. -/
inductive Refusal where
  | contract (detail code path findingDetail : String)
  | value (message : String)
deriving DecidableEq

/-- The five gates. -/
abbrev GateId := { gate : Nat // 1 ≤ gate ∧ gate ≤ 5 }

/-- The gates in front of one. -/
def earlierGates (gate : Nat) : List Nat := List.range' 1 (gate - 1)

/-- Two kinds of profile. -/
inductive ProfileKind where
  | certifying | diagnostic
deriving DecidableEq

/-- What a rail ends with. -/
inductive RailStatus where
  | pass | fail | blocked | notApplicable
deriving DecidableEq

/-- The verdict over a gate. -/
inductive Disposition where
  | green | red
deriving DecidableEq

/-- Who decides what a rail is. -/
inductive RailAuthority where
  | repositoryProfile | memoryDomain

/-- The kind of work a rail does. -/
inductive RailClass where
  | preTestQuality | ordinaryTestSuite | postTestQuality | integrationTest | memoryQuality

/-- Whether a failure stops the gate. -/
inductive RailPosture where
  | enforcing | reportOnly
deriving DecidableEq

/-- A rail and its version. -/
structure RailIdentity where
  railId : String
  version : String
deriving DecidableEq

/-- `rail_id@version`. -/
def RailIdentity.key (rail : RailIdentity) : String := rail.railId ++ "@" ++ rail.version

/-- A candidate by its kind and value. -/
structure CandidateIdentity where
  kind : String
  value : String
deriving DecidableEq

/-- A candidate that is an exact Git tree. -/
abbrev GitTreeIdentity := { candidate : CandidateIdentity // candidate.kind = "git-tree" }

/-! ## Plans -/

/-- An artifact a rail promises. -/
structure ArtifactDeclaration where
  artifactId : String
  schemaVersion : String
  mediaType : String
  requiredOnPass : Bool := true

/-- What runs a rail. -/
structure RailAdapterDefinition where
  adapterKind : String
  adapterId : String
  configurationDigest : String
  executionEvidence : String

/-- What a rail's run depends on. -/
structure RailRuntimeInputs where
  runtimeIdentity : Option String := none
  toolchainDigest : Option String := none
  imageDigest : Option String := none
  lockDigest : Option String := none
  environmentDigest : Option String := none
  secretPolicyDigest : Option String := none

/-- Evidence a rail promises, and its size. -/
structure RailEvidenceContract where
  evidenceId : String
  mediaType : String
  maxBytes : Nat

/-- Whether a rail applies to a profile, and why. -/
structure RailApplicability where
  profileId : String
  /-- Applicable, or not. -/
  applicable : Bool
  selectionIdentity : String
  population : Option String := none
  reason : Option String := none
deriving DecidableEq

/-- One rail of a plan. -/
structure CompiledRail where
  identity : RailIdentity
  definitionDigest : String
  gate : GateId
  railClass : RailClass
  authority : RailAuthority
  ownerClass : String
  correctiveOwner : String
  posture : RailPosture
  orderKey : String
  prerequisites : List RailIdentity := []
  requiredArtifacts : List String := []
  adapter : RailAdapterDefinition
  runtimeInputs : RailRuntimeInputs := {}
  applicability : RailApplicability
  evidenceContract : List RailEvidenceContract
  outputArtifacts : List ArtifactDeclaration := []

/-- A gate plan without its own digest and that of the registry. -/
structure GatePlanSemantics where
  candidateIdentity : CandidateIdentity
  profileId : String
  profileKind : ProfileKind
  gate : GateId
  gatePrerequisites : List GateId
  rails : List CompiledRail
  waves : List (List RailIdentity)

/-- The plan of a gate under its digest. -/
structure GatePlan extends GatePlanSemantics where
  registryDigest : String
  planDigest : String

/-- The plan of all gates under its digest. -/
structure CertificationPlan where
  registryDigest : String
  candidateIdentity : CandidateIdentity
  profileId : String
  profileKind : ProfileKind
  gates : List GatePlan
  planDigest : String

/-! ## Results -/

/-- An artifact a rail left. -/
structure RailArtifactResult where
  artifactId : String
  sha256 : String
  size : Nat
  evidenceRef : String

/-- Evidence a rail left. -/
structure RailEvidenceReference where
  evidenceId : String
  sha256 : String
  size : Nat
  reference : String
deriving DecidableEq

/-- The result of one rail. -/
structure RailResult where
  rail : RailIdentity
  posture : RailPosture
  status : RailStatus
  code : String
  blockedBy : List RailIdentity := []
  correctiveOwner : String
  artifacts : List RailArtifactResult := []
  evidence : List RailEvidenceReference := []
  resultDigest : String

/-- The results of a gate under their digest. -/
structure GateResultManifest where
  registryDigest : String
  certificationPlanDigest : String
  gatePlanDigest : String
  candidateIdentity : CandidateIdentity
  profileId : String
  profileKind : ProfileKind
  altitude : ProfileKind
  gate : GateId
  disposition : Disposition
  railResults : List RailResult
  manifestDigest : String

/-! ## Inputs -/

/-- One thing a gate consumes, by its digest. -/
structure CertificateInputIdentity where
  inputKind : String
  inputId : String
  contentDigest : String
deriving DecidableEq

/-- What an input is told by. -/
def CertificateInputIdentity.key (input : CertificateInputIdentity) : String × String :=
  (input.inputKind, input.inputId)

/-- The order of the inputs. -/
def CertificateInputIdentity.order (input : CertificateInputIdentity) :
    String ×ₗ String ×ₗ String :=
  toLex (input.inputKind, toLex (input.inputId, input.contentDigest))

/-- Unique and canonical. -/
def CanonicalInputs (inputs : List CertificateInputIdentity) : Prop :=
  Canonical.IsCanonical CertificateInputIdentity.order CertificateInputIdentity.key inputs

instance (inputs : List CertificateInputIdentity) : Decidable (CanonicalInputs inputs) :=
  inferInstanceAs (Decidable (Canonical.IsCanonical _ _ _))

/-- One subrecord of the coherence evidence. -/
structure CoherenceSubrecordIdentity where
  subrecordId : String
  contentDigest : String
deriving DecidableEq

/-- What the memory gate consumes; the subrecords in canonical order. -/
structure GateFiveSemanticInputs where
  memoryTree : GitTreeIdentity
  affectedClosurePlanDigest : String
  memoryCheckerRegistryDigest : String
  coherenceSubrecords : List CoherenceSubrecordIdentity
  candidatePairAuthorityDigest : String
  nonempty : coherenceSubrecords ≠ []
  canonical : Canonical.IsCanonical
    (fun item : CoherenceSubrecordIdentity => toLex (item.subrecordId, item.contentDigest))
    CoherenceSubrecordIdentity.subrecordId coherenceSubrecords
deriving DecidableEq

/-! ## Admissions -/

/-- A gate as it is admitted. -/
structure AdmissionGateIdentity where
  gate : GateId
  gatePlanDigest : String
  gateSemanticDigest : String
  repositoryGatePlanDigest : Option String := none
  semanticInputs : List CertificateInputIdentity
  /-- Only the first four gates have a repository gate plan. -/
  shape : gate.1 ≤ 4 ↔ repositoryGatePlanDigest.isSome
  canonical : CanonicalInputs semanticInputs

/-- The five gates of an admission, in order. -/
structure CertificationAdmissionSemanticEnvelope where
  repositoryId : String
  candidateCodeTree : GitTreeIdentity
  profileId : String
  certificationPlanDigest : String
  admittedProfileDigest : String
  registryDigest : String
  gates : List AdmissionGateIdentity
  ordered : gates.map (fun item => item.gate.1) = [1, 2, 3, 4, 5]

/-- When, by whom and from what. -/
structure CreationProvenance where
  createdAt : String
  producer : String
  evidenceRef : String
deriving DecidableEq

/-! ## Certificates -/

/-- A certificate by its gate and digest. -/
structure GateCertificateIdentity where
  gate : GateId
  certificateDigest : String
deriving DecidableEq

/-- A rail in a certificate. -/
structure CertificateRailInventory where
  rail : RailIdentity
  resultDigest : String
  status : RailStatus
  code : String
  correctiveOwner : String
deriving DecidableEq

/-- An artifact in a certificate. -/
structure CertificateArtifactInventory where
  rail : RailIdentity
  artifactId : String
  sha256 : String
  size : Nat
  evidenceRef : String
deriving DecidableEq

/-- The order of the artifacts. -/
def CertificateArtifactInventory.key (item : CertificateArtifactInventory) : String ×ₗ String :=
  toLex (item.rail.key, item.artifactId)

/-- Evidence in a certificate. -/
structure CertificateEvidenceInventory where
  rail : RailIdentity
  evidenceId : String
  sha256 : String
  size : Nat
  reference : String
deriving DecidableEq

/-- The order of the evidence. -/
def CertificateEvidenceInventory.key (item : CertificateEvidenceInventory) : String ×ₗ String :=
  toLex (item.rail.key, item.evidenceId)

/-- An artifact of an earlier gate that this one read. -/
structure ConsumedArtifactIdentity where
  artifactId : String
  producerGate : GateId
  producerCertificateDigest : String
  sha256 : String
  size : Nat
deriving DecidableEq

/-- What a certificate states and its digest covers. -/
structure GateCertificateSemanticEnvelope where
  gate : GateId
  repositoryId : String
  candidateCodeTree : GitTreeIdentity
  admissionDigest : String
  admittedProfileDigest : String
  registryDigest : String
  gatePlanDigest : String
  gateSemanticDigest : String
  repositoryGatePlanDigest : Option String := none
  directPredecessors : List GateCertificateIdentity
  semanticInputs : List CertificateInputIdentity
  consumedArtifacts : List ConsumedArtifactIdentity
  resultManifestDigest : String
  railInventory : List CertificateRailInventory
  artifactInventory : List CertificateArtifactInventory
  evidenceInventory : List CertificateEvidenceInventory
  gateFiveInputs : Option GateFiveSemanticInputs := none
deriving DecidableEq

/-- What a certificate is held to when its envelope is built. -/
def GateCertificateSemanticEnvelope.check (envelope : GateCertificateSemanticEnvelope) :
    Except Refusal Unit :=
  inOrder
    [ refuseIf (4 < envelope.directPredecessors.length ∨ 16384 < envelope.semanticInputs.length ∨
          4096 < envelope.consumedArtifacts.length ∨ envelope.railInventory = [] ∨
          4096 < envelope.railInventory.length ∨ 4096 < envelope.artifactInventory.length ∨
          4096 < envelope.evidenceInventory.length)
        (.value "certificate envelope field length out of bounds"),
      refuseIf (envelope.directPredecessors.map (fun item => item.gate.1) ≠
          earlierGates envelope.gate.1)
        (.value "certificate predecessors must be the exact earlier-gate prefix"),
      refuseIf (¬(envelope.gate.1 ≤ 4 ↔ envelope.repositoryGatePlanDigest.isSome))
        (.value "only Gates 1-4 bind a repository gate-plan digest"),
      refuseIf (¬(envelope.gate.1 = 5 ↔ envelope.gateFiveInputs.isSome))
        (.value "only Gate 5 binds memory and coherence inputs"),
      refuseIf (¬CanonicalInputs envelope.semanticInputs)
        (.value "certificate semantic inputs must be unique and canonical"),
      refuseIf (¬Canonical.IsCanonical (fun item : CertificateRailInventory => item.rail.key)
          (fun item => item.rail.key) envelope.railInventory)
        (.value "certificate rail inventory must be unique and canonical"),
      refuseIf (¬Canonical.IsCanonical CertificateArtifactInventory.key
          CertificateArtifactInventory.key envelope.artifactInventory)
        (.value "certificate artifact inventory must be unique and canonical"),
      refuseIf (¬Canonical.IsCanonical CertificateEvidenceInventory.key
          CertificateEvidenceInventory.key envelope.evidenceInventory)
        (.value "certificate evidence inventory must be unique and canonical"),
      refuseIf (¬Canonical.IsCanonical
          (fun item : ConsumedArtifactIdentity => toLex (item.artifactId, item.producerGate.1))
          ConsumedArtifactIdentity.artifactId envelope.consumedArtifacts)
        (.value "consumed artifact identities must be unique and canonical") ]

/-- What a finalization authority states and its digest covers. -/
structure FinalizationSemanticEnvelope where
  repositoryId : String
  candidateCodeTree : GitTreeIdentity
  candidateMemoryTree : GitTreeIdentity
  admissionDigest : String
  certificates : List GateCertificateIdentity
  candidatePairAuthorityDigest : String
  taskIntentAuthorityDigest : String
  journalAuthorityDigest : String
deriving DecidableEq

/-- The certificates that finalization binds are those of the five gates. -/
def FinalizationSemanticEnvelope.check (envelope : FinalizationSemanticEnvelope) :
    Except Refusal Unit :=
  refuseIf (envelope.certificates.map (fun item => item.gate.1) ≠ [1, 2, 3, 4, 5])
    (.value "finalization authority requires exact ordered Gates 1-5")

/-- The inputs of a finalization, as they are now. -/
structure FinalizationCurrentInputs where
  gateFiveInputs : GateFiveSemanticInputs
  taskIntentAuthorityDigest : String
  journalAuthorityDigest : String

/-! ## Digests -/

/-- The contents that are digested. -/
inductive Content where
  | admission (envelope : CertificationAdmissionSemanticEnvelope)
  | gatePlan (plan : GatePlanSemantics)
  | certificate (envelope : GateCertificateSemanticEnvelope)
  | finalization (envelope : FinalizationSemanticEnvelope)
  | candidate (identity : CandidateIdentity)
  | runtimeInputs (inputs : RailRuntimeInputs)
  | applicability (applicability : RailApplicability)
  | requiredArtifacts (artifacts : List String)

variable (contentDigest : Content → String)

/-- An admission under its digest. -/
structure CertificationAdmissionManifest where
  semanticEnvelope : CertificationAdmissionSemanticEnvelope
  admissionDigest : String
  provenance : CreationProvenance
  digested : admissionDigest = contentDigest (.admission semanticEnvelope)

/-- A certificate that passed its check, under its digest. -/
structure GateCertificate where
  semanticEnvelope : GateCertificateSemanticEnvelope
  certificateDigest : String
  provenance : CreationProvenance
  checked : semanticEnvelope.check = .ok ()
  digested : certificateDigest = contentDigest (.certificate semanticEnvelope)
deriving DecidableEq

/-- An authority that passed its check, under its digest. -/
structure FinalizationCertificateAuthority where
  semanticEnvelope : FinalizationSemanticEnvelope
  authorityDigest : String
  provenance : CreationProvenance
  checked : semanticEnvelope.check = .ok ()
  digested : authorityDigest = contentDigest (.finalization semanticEnvelope)
deriving DecidableEq

variable {contentDigest}

/-- The gate and the digest. -/
def GateCertificate.identity (certificate : GateCertificate contentDigest) :
    GateCertificateIdentity :=
  ⟨certificate.semanticEnvelope.gate, certificate.certificateDigest⟩

/-- Evidence provenance and optional memory inputs for one issuance. -/
structure GateCertificateIssuanceContext where
  provenance : CreationProvenance
  gateFiveInputs : Option GateFiveSemanticInputs := none

end AgentsRemember.Certification
