import AgentsRemember.Certification.Authority

/-!
# Certification — Invalidation

Which gates a change of inputs puts out of date, and which certificates are
reused: the matrix of change classes with its downstream closure, the drift of
certificates against an admission, and the prefix that an explicit resume keeps.
-/

namespace AgentsRemember.Certification

open Checks

/-! ## Changes -/

/-- Why a certificate may be out of date. -/
inductive InputChangeClass where
  | code | gateOneInput | gateTwoInput | gateThreeInput | gateFourInput
  | runtimeToolchainExecutorImage | memoryOnboarding | coherenceEvidence | topologyIntent
  | closeoutResume | journalReviewApprovalAttempt | unchangedInterruption | unclassified
deriving DecidableEq

/-- The classes that declare the gates they bear on. -/
def InputChangeClass.consumesDeclared (changeClass : InputChangeClass) : Bool :=
  changeClass ∈ [.runtimeToolchainExecutorImage, .topologyIntent, .closeoutResume]

/-- One change, with the gates it names; which it may name depends on its class. -/
structure CertificateInputChange where
  changeClass : InputChangeClass
  consumingGates : List GateId := []
  affectedGateFiveSubrecords : List String := []
  reason : String
  gatesOrdered : consumingGates.Pairwise fun a b => a.1 < b.1
  fixedScope : changeClass.consumesDeclared = false → consumingGates = []
  runtimeConsumes : changeClass = .runtimeToolchainExecutorImage → consumingGates ≠ []
  resumesOnce : changeClass = .closeoutResume → consumingGates.length = 1
  onlyCoherence : changeClass ≠ .coherenceEvidence → affectedGateFiveSubrecords = []
  subrecordsOrdered : affectedGateFiveSubrecords.Pairwise (· < ·)

/-- What a set of changes puts out of date. -/
structure CertificateInvalidationDecision where
  invalidatedGates : List GateId
  retainedGates : List GateId
  affectedGateFiveSubrecords : List String
  finalizationRevalidationRequired : Bool

/-- What is reused, and where the run begins. -/
structure CertificateReusePlan where
  reusedCertificates : List GateCertificateIdentity
  invalidatedGates : List GateId
  firstGateToRun : Option GateId
  finalizationRevalidationRequired : Bool
  zeroGateStarts : Bool

/-! ## The matrix -/

/-- The five gates. -/
def allGates : List GateId :=
  [⟨1, by decide⟩, ⟨2, by decide⟩, ⟨3, by decide⟩, ⟨4, by decide⟩, ⟨5, by decide⟩]

/-- The first gate. -/
def gateOne : GateId := ⟨1, by decide⟩

/-- The second gate. -/
def gateTwo : GateId := ⟨2, by decide⟩

/-- The third gate. -/
def gateThree : GateId := ⟨3, by decide⟩

/-- The fourth gate. -/
def gateFour : GateId := ⟨4, by decide⟩

/-- The fifth gate. -/
def gateFive : GateId := ⟨5, by decide⟩

/-- A gate and all behind it. -/
def downstreamGates (gate : GateId) : List GateId := allGates.drop (gate.1 - 1)

/-- The gates a change begins at, by its class. -/
def changeStartGates (change : CertificateInputChange) : List GateId :=
  match change.changeClass with
  | .code | .gateOneInput | .unclassified => [⟨1, by decide⟩]
  | .gateTwoInput => [⟨2, by decide⟩]
  | .gateThreeInput => [⟨3, by decide⟩]
  | .gateFourInput => [⟨4, by decide⟩]
  | .memoryOnboarding | .coherenceEvidence => [⟨5, by decide⟩]
  | .journalReviewApprovalAttempt | .unchangedInterruption => []
  | .runtimeToolchainExecutorImage | .topologyIntent | .closeoutResume => change.consumingGates

/-- The gates behind every start, with the touched subrecords. -/
def classifyCertificateInvalidation (changes : List CertificateInputChange) :
    CertificateInvalidationDecision :=
  let invalidated := changes.flatMap fun change => (changeStartGates change).flatMap downstreamGates
  let subrecords := changes.flatMap fun change =>
    if change.changeClass = .coherenceEvidence then change.affectedGateFiveSubrecords else []
  { invalidatedGates := allGates.filter fun gate => gate ∈ invalidated
    retainedGates := allGates.filter fun gate => gate ∉ invalidated
    affectedGateFiveSubrecords := Canonical.sorted id subrecords.dedup
    finalizationRevalidationRequired := changes.any fun change =>
      change.changeClass ∉ [.unchangedInterruption] ||
        change.changeClass ∈ [.topologyIntent, .journalReviewApprovalAttempt,
          .unchangedInterruption] }

/-! ## The plan -/

variable {contentDigest : Content → String}

/-- The certificates in front of an explicit resume. -/
def explicitResumePrefix (chain : List (GateCertificate contentDigest))
    (changes : List CertificateInputChange) (invalidated : List GateId) :
    List (GateCertificate contentDigest) :=
  let starts := (changes.filter fun change => change.changeClass = .closeoutResume).filterMap
    fun change => change.consumingGates.head?
  match (starts.map Subtype.val).min? with
  | none => []
  | some firstGate =>
    if ∃ gate ∈ invalidated, gate.1 < firstGate then [] else chain.take (firstGate - 1)

/-- The gates from the first certificate on that does not validate at the end
of its own prefix; only a refusal of the contracts counts. -/
def identityDriftClosure (admission : CertificationAdmissionManifest contentDigest)
    (chain : List (GateCertificate contentDigest))
    (gateFiveInputs : Option GateFiveSemanticInputs)
    (retainedCertificates : List GateCertificateIdentity) :
    List (GateCertificate contentDigest × Nat) → Except Refusal (List GateId)
  | [] => .ok []
  | (certificate, index) :: rest =>
    match validateCertificateChain admission (chain.take (index + 1)) gateFiveInputs
      (some (retainedCertificates.take (index + 1))) with
    | .ok _ => identityDriftClosure admission chain gateFiveInputs retainedCertificates rest
    | .error (.contract ..) => .ok (downstreamGates certificate.semanticEnvelope.gate)
    | .error refusal => .error refusal

/-- The plan that reuses these certificates and runs the gates from the first one on. -/
def reusePlan (decision : CertificateInvalidationDecision)
    (retained : List (GateCertificate contentDigest)) (firstGate : Option GateId) :
    CertificateReusePlan where
  reusedCertificates := retained.map GateCertificate.identity
  invalidatedGates := (firstGate.map downstreamGates).getD []
  firstGateToRun := firstGate
  finalizationRevalidationRequired :=
    decision.finalizationRevalidationRequired || firstGate.isNone
  zeroGateStarts := firstGate.isNone

/-- `plan_certificate_reuse`, its refusals in their order. -/
def planCertificateReuse (admission : CertificationAdmissionManifest contentDigest)
    (certificates : List (GateCertificate contentDigest)) (changes : List CertificateInputChange)
    (gateFiveInputs : Option GateFiveSemanticInputs) : Except Refusal CertificateReusePlan := do
  refuseIf (certificates.map (fun item => item.semanticEnvelope.gate.1) ≠
      List.range' 1 certificates.length)
    (.value "candidate certificates must form one exact ordered prefix")
  let decision := classifyCertificateInvalidation changes
  let retainedHint := (explicitResumePrefix certificates changes decision.invalidatedGates).map
    GateCertificate.identity
  let drift ← identityDriftClosure admission certificates gateFiveInputs retainedHint
    certificates.zipIdx
  let invalidated := decision.invalidatedGates ++ drift
  let retained := certificates.takeWhile fun item => item.semanticEnvelope.gate ∉ invalidated
  let _ ← validateCertificateChain admission retained gateFiveInputs
    (if retainedHint = [] then none else some retainedHint)
  let candidates := invalidated ++ allGates.drop certificates.length
  -- the least of them
  let firstGate := allGates.find? fun gate => gate ∈ candidates
  return reusePlan decision retained firstGate

/-! ## Closures -/

theorem mem_downstreamGates {gate other : GateId} :
    other ∈ downstreamGates gate ↔ gate.1 ≤ other.1 := by
  obtain ⟨gate, hgate⟩ := gate
  obtain ⟨other, hother⟩ := other
  obtain rfl | rfl | rfl | rfl | rfl : gate = 1 ∨ gate = 2 ∨ gate = 3 ∨ gate = 4 ∨ gate = 5 := by
    omega
  all_goals
    simp only [downstreamGates, allGates, List.drop, List.mem_cons, Subtype.mk.injEq,
      List.not_mem_nil, or_false, Nat.add_one_sub_one]
    omega

theorem mem_allGates (gate : GateId) : gate ∈ allGates :=
  (@mem_downstreamGates ⟨1, by decide⟩ gate).mpr gate.2.1

/-- A change bears on the gate, or on one in front of it. -/
def Touched (changes : List CertificateInputChange) (gate : Nat) : Prop :=
  ∃ change ∈ changes, ∃ start ∈ changeStartGates change, start.1 ≤ gate

theorem mem_invalidatedGates {changes : List CertificateInputChange} {gate : GateId} :
    gate ∈ (classifyCertificateInvalidation changes).invalidatedGates ↔ Touched changes gate.1 := by
  simp only [classifyCertificateInvalidation, List.mem_filter, mem_allGates, true_and,
    List.mem_flatMap, mem_downstreamGates, decide_eq_true_eq]
  rfl

theorem Touched.mono {changes : List CertificateInputChange} {gate gate' : Nat}
    (h : Touched changes gate) (hle : gate ≤ gate') : Touched changes gate' := by
  obtain ⟨change, hchange, start, hstart, hgate⟩ := h
  exact ⟨change, hchange, start, hstart, hgate.trans hle⟩

end AgentsRemember.Certification
