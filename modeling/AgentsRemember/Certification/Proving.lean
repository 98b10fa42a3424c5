import AgentsRemember.Certification.Chains
import AgentsRemember.Certification.Invalidation

/-!
# Certification — Proving

A gate certificate proves its inputs: the chain it extends validates where it
was issued, and any admission that the chain validates against stands on the
ground its certificates were issued on.
-/

namespace AgentsRemember.Certification

/-- Issuing and validating meet: a chain validates with the certificate issued
for it; what validates an issued certificate is the ground it was issued on, and
its consumed artifacts are in the chain; a finalization authority is current
when compiling gives it. -/
theorem certificate_proves_inputs (contentDigest : Content → String) :
    (∀ (admission : CertificationAdmissionManifest contentDigest) gatePlan manifest predecessors
        issuance retainedCertificates certificate,
      compileGateCertificate admission gatePlan manifest predecessors issuance
          retainedCertificates = .ok certificate →
        validateCertificateChain admission (predecessors ++ [certificate])
          issuance.gateFiveInputs retainedCertificates = .ok (predecessors ++ [certificate])) ∧
    (∀ (admission' : CertificationAdmissionManifest contentDigest) certificates gateFiveInputs,
      validateCertificateChain admission' certificates gateFiveInputs none = .ok certificates →
        ∀ (i : Nat) certificate, certificates[i]? = some certificate →
          ∀ (admission : CertificationAdmissionManifest contentDigest) gatePlan manifest
              predecessors issuance retainedCertificates,
            compileGateCertificate admission gatePlan manifest predecessors issuance
                retainedCertificates = .ok certificate →
              SameGround admission admission' certificate.semanticEnvelope.gate
                  issuance.gateFiveInputs gateFiveInputs ∧
                (ToldApart predecessors certificates →
                  ∀ item ∈ certificate.semanticEnvelope.consumedArtifacts,
                    FromExactlyOne certificates i item)) ∧
    (∀ (authority : FinalizationCertificateAuthority contentDigest) admission certificates
        currentInputs retainedCertificates,
      (∃ validated, validateFinalizationCurrentness authority admission certificates
          currentInputs retainedCertificates = .ok validated) ↔
        compileFinalizationAuthority admission certificates currentInputs authority.provenance
          retainedCertificates = .ok authority) := by
  refine ⟨?_, ?_, ?_⟩
  · intro admission gatePlan manifest predecessors issuance retained certificate h
    exact (issue_of_compile h).validates
  · intro admission' certificates gateFiveInputs hvalid i certificate hi admission gatePlan manifest
      predecessors issuance retained h
    exact (issue_of_compile h).sameGround hvalid hi
  · intro authority admission certificates currentInputs retained
    exact validateFinalizationCurrentness_ok_iff

/-! ## Admissions as they are compiled -/

section compiled
variable {contentDigest : Content → String}

/-- A semantic input of the repository's own plan of a gate. -/
structure RepositorySemanticInputNode where
  inputKind : String
  inputId : String
  contentDigest : String

/-- What an admission takes of a `RepositoryGatePlan`: its inputs and its digest. -/
structure RepositoryGateInputs where
  semanticInputs : List RepositorySemanticInputNode
  planDigest : String

/-- Five inputs for each rail of a gate plan. -/
def genericGateInputs (contentDigest : Content → String) (gate : GatePlan) :
    List CertificateInputIdentity :=
  gate.rails.flatMap fun rail =>
    [⟨"rail-definition", rail.identity.key, rail.definitionDigest⟩,
      ⟨"rail-adapter", rail.identity.key, rail.adapter.configurationDigest⟩,
      ⟨"rail-runtime", rail.identity.key, contentDigest (.runtimeInputs rail.runtimeInputs)⟩,
      ⟨"selection-scope", rail.identity.key, contentDigest (.applicability rail.applicability)⟩,
      ⟨"artifact-dependency", rail.identity.key,
        contentDigest (.requiredArtifacts rail.requiredArtifacts)⟩]

/-- The inputs of a gate before they are made canonical. -/
def admissionGateInputs (contentDigest : Content → String) (gate : GatePlan)
    (repositoryGate : Option RepositoryGateInputs) : List CertificateInputIdentity :=
  genericGateInputs contentDigest gate ++ (repositoryGate.map fun plan =>
    plan.semanticInputs.map fun item =>
      ⟨"repository-" ++ item.inputKind, item.inputId, item.contentDigest⟩).getD []

/-- The identity of a gate, of its plan and of the repository's. -/
def compileAdmissionGate (contentDigest : Content → String) (gate : GatePlan)
    (repositoryGate : Option RepositoryGateInputs) : Except Refusal AdmissionGateIdentity :=
  if shape : gate.gate.1 ≤ 4 ↔ (repositoryGate.map RepositoryGateInputs.planDigest).isSome then
    match h : canonicalizeCertificateInputs
        (admissionGateInputs contentDigest gate repositoryGate) with
    | .error refusal => .error refusal
    | .ok inputs => .ok
      { gate := gate.gate
        gatePlanDigest := gate.planDigest
        gateSemanticDigest := gateSemanticDigest contentDigest gate
        repositoryGatePlanDigest := repositoryGate.map RepositoryGateInputs.planDigest
        semanticInputs := inputs
        shape := shape
        canonical := (Canonical.canonicalize_spec h).1 }
  else .error (.value "certification admission has an incomplete repository gate plan")

/-- Every gate of the admission is compiled from plans. -/
def CompiledAdmission (admission : CertificationAdmissionManifest contentDigest) : Prop :=
  ∀ admitted ∈ admission.semanticEnvelope.gates, ∃ gate repositoryGate,
    compileAdmissionGate contentDigest gate repositoryGate = .ok admitted

/-- The inputs that gates are compiled with are told from the memory inputs by the
first letter of their kind. -/
def ofPlan (item : CertificateInputIdentity) : Bool :=
  item.inputKind.toList.head?.any fun c => c = 'r' ∨ c = 's' ∨ c = 'a'

theorem ofPlan_of_compiled {gate : GatePlan} {repositoryGate : Option RepositoryGateInputs}
    {admitted : AdmissionGateIdentity}
    (h : compileAdmissionGate contentDigest gate repositoryGate = .ok admitted) :
    ∀ item ∈ admitted.semanticInputs, ofPlan item = true := by
  unfold compileAdmissionGate at h
  split at h
  · split at h
    · cases h
    next inputs hinputs =>
      cases h
      intro item hitem
      have hsource := ((Canonical.canonicalize_spec hinputs).2 item).mp hitem
      rcases List.mem_append.mp hsource with hgeneric | hrepository
      · obtain ⟨rail, -, hrail⟩ := List.mem_flatMap.mp hgeneric
        simp only [List.mem_cons, List.not_mem_nil, or_false] at hrail
        rcases hrail with rfl | rfl | rfl | rfl | rfl <;> simp [ofPlan]
      · cases repositoryGate with
        | none => cases hrepository
        | some plan =>
          obtain ⟨node, -, rfl⟩ := List.mem_map.mp hrepository
          simp [ofPlan]
  · cases h

theorem not_ofPlan_of_memory {gateFiveInputs : Option GateFiveSemanticInputs}
    {item : CertificateInputIdentity}
    (h : item ∈ memoryIdentities contentDigest gateFiveInputs) : ofPlan item = false := by
  cases gateFiveInputs with
  | none => cases h
  | some inputs =>
    cases hidentities : gateFiveInputIdentities contentDigest inputs with
    | error refusal =>
      rw [memoryIdentities, memoryInputIdentities, hidentities] at h
      cases h
    | ok identities =>
      rw [memoryIdentities, memoryInputIdentities, hidentities] at h
      have hsource := ((Canonical.canonicalize_spec hidentities).2 item).mp h
      rcases List.mem_append.mp hsource with hfixed | hcoherence
      · simp only [List.mem_cons, List.not_mem_nil, or_false] at hfixed
        rcases hfixed with rfl | rfl | rfl | rfl <;> simp [ofPlan]
      · obtain ⟨subrecord, -, rfl⟩ := List.mem_map.mp hcoherence
        simp [ofPlan]

/-- No input of a gate that is compiled is one of the memory inputs. -/
theorem filter_of_compiled {admission : CertificationAdmissionManifest contentDigest}
    {gate : GateId} {admitted : AdmissionGateIdentity} (hcompiled : CompiledAdmission admission)
    (hadmitted : admittedGateIdentity admission gate = .ok admitted)
    (gateFiveInputs : Option GateFiveSemanticInputs) :
    (admitted.semanticInputs.filter fun item =>
      item ∉ memoryIdentities contentDigest gateFiveInputs) = admitted.semanticInputs := by
  unfold admittedGateIdentity at hadmitted
  split at hadmitted
  next item hfind =>
    cases hadmitted
    obtain ⟨plan, repositoryGate, hplan⟩ := hcompiled admitted (List.mem_of_find?_eq_some hfind)
    rw [List.filter_eq_self]
    intro input hinput
    simp only [decide_eq_true_eq]
    intro hmemory
    have hplanned := ofPlan_of_compiled hplan input hinput
    rw [not_ofPlan_of_memory hmemory] at hplanned
    cases hplanned
  · cases hadmitted

/-- Between admissions that are compiled the ground is the same without exception: the inputs
of the gate are equal. -/
theorem SameGround.semanticInputs_eq
    {admission admission' : CertificationAdmissionManifest contentDigest} {gate : GateId}
    {gateFiveInputs gateFiveInputs' : Option GateFiveSemanticInputs}
    (h : SameGround admission admission' gate gateFiveInputs gateFiveInputs')
    (hcompiled : CompiledAdmission admission) (hcompiled' : CompiledAdmission admission') :
    (admittedGateIdentity admission' gate).map AdmissionGateIdentity.semanticInputs =
      (admittedGateIdentity admission gate).map AdmissionGateIdentity.semanticInputs := by
  obtain ⟨admitted, admitted', hadmitted, hadmitted', -, -, hsame⟩ := h.gates
  rw [filter_of_compiled hcompiled hadmitted, filter_of_compiled hcompiled' hadmitted'] at hsame
  rw [hadmitted, hadmitted']
  exact congrArg Except.ok hsame

end compiled

/-! ## A chain of five -/

/-- A digest that ends in zeros. -/
def hex (n : Nat) : String := String.ofList (Nat.toDigits 10 n ++ List.replicate 61 '0')

/-- Digests of the few contents below, all different. -/
def sampleDigest : Content → String
  | .admission envelope => hex (100 + (envelope.gates.flatMap (·.semanticInputs)).length)
  | .gatePlan plan => hex (110 + plan.gate.1)
  | .certificate envelope => hex (120 + envelope.gate.1)
  | .finalization _ => hex 130
  | .candidate _ => hex 140
  | .runtimeInputs _ => hex 150
  | .applicability _ => hex 160
  | .requiredArtifacts _ => hex 170

/-- A code tree. -/
def codeTree : GitTreeIdentity := ⟨⟨"git-tree", "c0de"⟩, rfl⟩

/-- What a memory gate consumes. -/
def memory : GateFiveSemanticInputs where
  memoryTree := ⟨⟨"git-tree", "3e3e"⟩, rfl⟩
  affectedClosurePlanDigest := hex 180
  memoryCheckerRegistryDigest := hex 181
  coherenceSubrecords := [⟨"coherence", hex 182⟩]
  candidatePairAuthorityDigest := hex 183
  nonempty := by simp
  canonical := by decide

/-- Where a certificate comes from. -/
def provenance : CreationProvenance := ⟨"2026-09-02T00:00:01+00:00", "test", "evidence://one"⟩

/-- A rail for each gate. -/
def rail (gate : GateId) : CompiledRail where
  identity := ⟨"rail-" ++ toString gate.1, "1.0.0"⟩
  definitionDigest := hex 190
  gate := gate
  railClass := .ordinaryTestSuite
  authority := .repositoryProfile
  ownerClass := "owner"
  correctiveOwner := "owner"
  posture := .enforcing
  orderKey := "1"
  requiredArtifacts := if gate.1 = 3 then ["suite"] else []
  adapter := ⟨"runner", "runner", hex 191, "runner://"⟩
  applicability := ⟨"targeted", true, "all", some "all", none⟩
  evidenceContract := []

/-- A plan of one rail. -/
def plan (gate : GateId) : GatePlan where
  candidateIdentity := codeTree.1
  profileId := "targeted"
  profileKind := .certifying
  gate := gate
  gatePrerequisites := []
  rails := [rail gate]
  waves := [[(rail gate).identity]]
  registryDigest := hex 192
  planDigest := hex (200 + gate.1)

/-- The second gate produces what the third requires. -/
def result (gate : GateId) : GateResultManifest where
  registryDigest := hex 192
  certificationPlanDigest := hex 193
  gatePlanDigest := hex (200 + gate.1)
  candidateIdentity := codeTree.1
  profileId := "targeted"
  profileKind := .certifying
  altitude := .certifying
  gate := gate
  disposition := .green
  railResults := [{
    rail := (rail gate).identity
    posture := .enforcing
    status := .pass
    code := "passed"
    correctiveOwner := "owner"
    artifacts := if gate.1 = 2 then [⟨"suite", hex 194, 32, "artifact://suite"⟩] else []
    resultDigest := hex (210 + gate.1) }]
  manifestDigest := hex (220 + gate.1)

/-- The admitted identity of that plan. -/
def admittedGate (gate : GateId) (inputs : List CertificateInputIdentity)
    (canonical : CanonicalInputs inputs) : AdmissionGateIdentity where
  gate := gate
  gatePlanDigest := hex (200 + gate.1)
  gateSemanticDigest := hex (110 + gate.1)
  repositoryGatePlanDigest := if gate.1 ≤ 4 then some (hex 195) else none
  semanticInputs := inputs
  shape := by split <;> simp [*]
  canonical := canonical

/-- An admission with these inputs of its own at Gate 5. -/
def admissionOf (inputs : List CertificateInputIdentity) (canonical : CanonicalInputs inputs) :
    CertificationAdmissionManifest sampleDigest where
  semanticEnvelope := {
    repositoryId := "fixture"
    candidateCodeTree := codeTree
    profileId := "targeted"
    certificationPlanDigest := hex 193
    admittedProfileDigest := hex 196
    registryDigest := hex 192
    gates := [admittedGate gateOne [] (by decide), admittedGate gateTwo [] (by decide),
      admittedGate gateThree [] (by decide), admittedGate gateFour [] (by decide),
      admittedGate gateFive inputs canonical]
    ordered := rfl }
  admissionDigest := hex (100 + inputs.length)
  provenance := provenance
  digested := by simp [sampleDigest, admittedGate]

/-- An admission whose last gate has no inputs. -/
def plain : CertificationAdmissionManifest sampleDigest := admissionOf [] (by decide)

/-- Its own inputs name the memory tree already. -/
def repeating : CertificationAdmissionManifest sampleDigest :=
  admissionOf [⟨"memory-tree", "git-tree", hex 140⟩] (by decide)

/-- One more certificate behind a chain. -/
def extend (admission : CertificationAdmissionManifest sampleDigest)
    (chain : List (GateCertificate sampleDigest)) (gate : GateId) :
    Except Refusal (List (GateCertificate sampleDigest)) := do
  let certificate ← compileGateCertificate admission (plan gate) (result gate) chain
    ⟨provenance, if gate.1 = 5 then some memory else none⟩ none
  return chain ++ [certificate]

/-- The five gates. -/
def gates : List GateId := [gateOne, gateTwo, gateThree, gateFour, gateFive]

/-- A chain of all five. -/
def chain : List (GateCertificate sampleDigest) :=
  (gates.foldlM (extend repeating) []).toOption.getD []

/-- At Gate 5 an input of the admission's own that repeats one of the memory
inputs leaves no trace in the certificate. -/
theorem repeated_input_unseen :
    gates.foldlM (extend repeating) [] = .ok chain ∧
      validateCertificateChain plain chain (some memory) none = .ok chain ∧
      (admittedGateIdentity plain ⟨5, by decide⟩).map AdmissionGateIdentity.semanticInputs ≠
        (admittedGateIdentity repeating ⟨5, by decide⟩).map
          AdmissionGateIdentity.semanticInputs := by
  have hissued : (gates.foldlM (extend repeating) []).toOption.isSome = true := by
    decide +kernel
  refine ⟨?_, ?_, ?_⟩
  · unfold chain
    cases h : gates.foldlM (extend repeating) [] with
    | error refusal =>
      rw [h] at hissued
      cases hissued
    | ok issued => rfl
  · exact validateCertificateChain_of_isSome (by decide +kernel)
  · decide +kernel

/-- The gate in the middle. -/
def thirdGate : GateId := gateThree

/-- The certificate of the third gate. -/
def third : GateCertificate sampleDigest :=
  (compileGateCertificate repeating (plan thirdGate) (result thirdGate) (chain.take 2)
    ⟨provenance, none⟩ none).toOption.get (by decide +kernel)

theorem third_proves_inputs :
    validateCertificateChain repeating (chain.take 2 ++ [third]) none none =
        .ok (chain.take 2 ++ [third]) ∧
      SameGround repeating plain third.semanticEnvelope.gate none (some memory) ∧
      ∀ item ∈ third.semanticEnvelope.consumedArtifacts, FromExactlyOne chain 2 item := by
  have hissued : compileGateCertificate repeating (plan thirdGate) (result thirdGate)
      (chain.take 2) ⟨provenance, none⟩ none = .ok third := Checks.eq_ok_get _
  obtain ⟨hextends, hproves, -⟩ := certificate_proves_inputs sampleDigest
  obtain ⟨hground, hconsumed⟩ := hproves plain chain (some memory) (by decide +kernel) 2 third
    (by decide +kernel) repeating _ _ _ _ _ hissued
  exact ⟨hextends repeating _ _ _ _ _ third hissued, hground, hconsumed (toldApart_take chain 2)⟩

end AgentsRemember.Certification
