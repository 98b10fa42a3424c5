import AgentsRemember.Certification.Authority

/-!
# Certification — Chains

What issuing puts into a certificate is what validating expects of it, against
the same admission; against another admission it holds that one to the facts
the certificate was issued for.

A gate's inputs reach its certificate together with the identities of the
memory inputs, as one canonical list: at Gate 5 an admission that has one of
these identities among its own inputs is not told from one that has not.
-/

namespace AgentsRemember.Certification

open Checks Attempts

variable {contentDigest : Content → String}

/-! ## Inputs -/

theorem order_key (a b : CertificateInputIdentity) (h : a.order = b.order) : a.key = b.key := by
  unfold CertificateInputIdentity.order at h
  unfold CertificateInputIdentity.key
  have hkind := congrArg (fun x => (ofLex x).1) h
  have hid := congrArg (fun x => (ofLex (ofLex x).2).1) h
  exact Prod.ext hkind hid

/-- The identities of the memory inputs, none without them. -/
def memoryIdentities (contentDigest : Content → String)
    (gateFiveInputs : Option GateFiveSemanticInputs) : List CertificateInputIdentity :=
  (memoryInputIdentities contentDigest gateFiveInputs).toOption.getD []

theorem mem_gateInputs {admitted : AdmissionGateIdentity}
    {gateFiveInputs : Option GateFiveSemanticInputs} {inputs : List CertificateInputIdentity}
    (h : gateInputs contentDigest admitted gateFiveInputs = .ok inputs)
    (item : CertificateInputIdentity) :
    item ∈ inputs ↔
      item ∈ admitted.semanticInputs ∨ item ∈ memoryIdentities contentDigest gateFiveInputs := by
  unfold gateInputs at h
  obtain ⟨memory, hmemory, hinputs⟩ := bind_eq_ok.mp h
  have hidentities : memoryIdentities contentDigest gateFiveInputs = memory := by
    rw [memoryIdentities, hmemory]
    rfl
  rw [(Canonical.canonicalize_spec hinputs).2, List.mem_append, hidentities]

/-- Gates with the same inputs in their certificates have the same admitted
inputs, away from the identities of the memory inputs. -/
theorem semanticInputs_eq {admitted admitted' : AdmissionGateIdentity}
    {gateFiveInputs : Option GateFiveSemanticInputs} {inputs : List CertificateInputIdentity}
    (h : gateInputs contentDigest admitted gateFiveInputs = .ok inputs)
    (h' : gateInputs contentDigest admitted' gateFiveInputs = .ok inputs) :
    (admitted'.semanticInputs.filter fun item =>
        item ∉ memoryIdentities contentDigest gateFiveInputs) =
      admitted.semanticInputs.filter fun item =>
        item ∉ memoryIdentities contentDigest gateFiveInputs := by
  refine (admitted'.canonical.filter _).ext order_key (admitted.canonical.filter _) fun item => ?_
  rw [List.mem_filter, List.mem_filter]
  have hmem := mem_gateInputs h item
  have hmem' := mem_gateInputs h' item
  rw [hmem] at hmem'
  simp only [decide_eq_true_eq]
  tauto

/-! ## Facts -/

/-- A certificate that is not retained is current when its facts are the expected ones. -/
theorem requireCurrentCertificate_fresh {admission : CertificationAdmissionManifest contentDigest}
    {certificate : GateCertificate contentDigest}
    {predecessors : List (GateCertificate contentDigest)}
    {gateFiveInputs : Option GateFiveSemanticInputs}
    {retained : List GateCertificateIdentity} (hfresh : certificate.identity ∉ retained) :
    requireCurrentCertificate admission certificate predecessors gateFiveInputs retained = .ok () ↔
      expectedFacts admission certificate.semanticEnvelope.gate predecessors gateFiveInputs =
        .ok certificate.semanticEnvelope.facts := by
  simp only [requireCurrentCertificate]
  rw [if_neg hfresh, bind_eq_ok]
  constructor
  · rintro ⟨expected, hexpected, heq⟩
    rw [hexpected, not_not.mp (refuseIf_ok.mp heq)]
  · exact fun h => ⟨_, h, refuseIf_ok.mpr (not_not.mpr rfl)⟩

/-- Memory inputs mean nothing to the gates before the fifth. -/
theorem requireCurrentCertificate_congr {admission : CertificationAdmissionManifest contentDigest}
    {certificate : GateCertificate contentDigest}
    (hgate : certificate.semanticEnvelope.gate.1 ≠ 5)
    (predecessors : List (GateCertificate contentDigest))
    (gateFiveInputs : Option GateFiveSemanticInputs) (retained : List GateCertificateIdentity) :
    requireCurrentCertificate admission certificate predecessors gateFiveInputs retained =
      requireCurrentCertificate admission certificate predecessors none retained := by
  have hexpected : expectedFacts admission certificate.semanticEnvelope.gate predecessors
      gateFiveInputs =
        expectedFacts admission certificate.semanticEnvelope.gate predecessors none := by
    unfold expectedFacts currentGateFiveInputs
    rw [if_neg hgate, if_neg hgate]
  simp only [requireCurrentCertificate, hexpected]

theorem requireCurrentCertificates_eq_ok {admission : CertificationAdmissionManifest contentDigest}
    {gateFiveInputs : Option GateFiveSemanticInputs} {retained : List GateCertificateIdentity}
    {certificates : List (GateCertificate contentDigest)} :
    requireCurrentCertificates admission gateFiveInputs retained certificates = .ok () ↔
      ∀ i certificate, certificates[i]? = some certificate →
        requireCurrentCertificate admission certificate (certificates.take i) gateFiveInputs
          retained = .ok () := by
  unfold requireCurrentCertificates
  rw [forM_eq_ok]
  constructor
  · intro h i certificate hi
    exact h (certificate, i) (List.mem_zipIdx_iff_getElem?.mpr hi)
  · rintro h ⟨certificate, i⟩ hmem
    exact h i certificate (List.mem_zipIdx_iff_getElem?.mp hmem)

theorem requireRetainedPrefix_eq_ok {certificates : List (GateCertificate contentDigest)}
    {retainedCertificates : Option (List GateCertificateIdentity)}
    {retained : List GateCertificateIdentity} :
    requireRetainedPrefix certificates retainedCertificates = .ok retained ↔
      retained = retainedCertificates.getD [] ∧
        retained = (certificates.take retained.length).map GateCertificate.identity := by
  simp only [requireRetainedPrefix]
  split
  · rename_i hne
    refine ⟨fun h => (by cases h), fun h => absurd h.2 ?_⟩
    rw [h.1]
    exact hne
  · rename_i heq
    rw [not_not] at heq
    constructor
    · rintro ⟨⟩
      exact ⟨rfl, heq⟩
    · rintro ⟨rfl, -⟩
      rfl

/-! ## Issued certificates -/

/-- What issuing reads and what it writes down of it. -/
structure Issue (admission : CertificationAdmissionManifest contentDigest) (gatePlan : GatePlan)
    (manifest : GateResultManifest) (predecessors : List (GateCertificate contentDigest))
    (issuance : GateCertificateIssuanceContext)
    (retainedCertificates : Option (List GateCertificateIdentity))
    (certificate : GateCertificate contentDigest) : Prop where
  gate : certificate.semanticEnvelope.gate = gatePlan.gate
  memory : currentGateFiveInputs gatePlan.gate issuance.gateFiveInputs =
    .ok issuance.gateFiveInputs
  facts : expectedFacts admission gatePlan.gate predecessors issuance.gateFiveInputs =
    .ok certificate.semanticEnvelope.facts
  retained : requireRetainedPrefix predecessors retainedCertificates =
    .ok (retainedCertificates.getD [])
  earlier : predecessors.map (fun item => item.semanticEnvelope.gate.1) =
    earlierGates gatePlan.gate.1
  current : requireCurrentCertificates admission none (retainedCertificates.getD [])
    predecessors = .ok ()
  consumed : bindConsumedArtifacts gatePlan manifest predecessors =
    .ok certificate.semanticEnvelope.consumedArtifacts

theorem GateCertificate.over_eq_ok {envelope : GateCertificateSemanticEnvelope}
    {provenance : CreationProvenance} {certificate : GateCertificate contentDigest}
    (h : GateCertificate.over contentDigest envelope provenance = .ok certificate) :
    certificate.semanticEnvelope = envelope := by
  unfold GateCertificate.over at h
  split at h
  · cases h
  · cases h
    rfl

theorem issue_of_compile {admission : CertificationAdmissionManifest contentDigest}
    {gatePlan : GatePlan} {manifest : GateResultManifest}
    {predecessors : List (GateCertificate contentDigest)}
    {issuance : GateCertificateIssuanceContext}
    {retainedCertificates : Option (List GateCertificateIdentity)}
    {certificate : GateCertificate contentDigest}
    (h : compileGateCertificate admission gatePlan manifest predecessors issuance
      retainedCertificates = .ok certificate) :
    Issue admission gatePlan manifest predecessors issuance retainedCertificates certificate := by
  unfold compileGateCertificate at h
  simp only [bind_eq_ok] at h
  obtain ⟨admitted, hadmitted, _, _, retained, hretained, _, hpredecessors, _, _, _, _, _, hfive,
    consumed, hconsumed, _, _, inputs, hinputs, hover⟩ := h
  obtain ⟨hgetD, -⟩ := requireRetainedPrefix_eq_ok.mp hretained
  subst hgetD
  unfold requireCurrentPredecessors at hpredecessors
  obtain ⟨_, hearlier, hcurrent⟩ := bind_eq_ok.mp hpredecessors
  have henvelope := GateCertificate.over_eq_ok hover
  -- the memory inputs of the issuance are the current ones
  have hmemory : currentGateFiveInputs gatePlan.gate issuance.gateFiveInputs =
      .ok issuance.gateFiveInputs := by
    have hiff := not_not.mp (refuseIf_ok.mp hfive)
    unfold currentGateFiveInputs
    cases hinputs : issuance.gateFiveInputs with
    | none =>
      rw [hinputs] at hiff
      rw [if_neg fun hgate => by simpa using hiff.mp hgate]
    | some five =>
      rw [hinputs] at hiff
      rw [if_pos (hiff.mpr rfl)]
  refine ⟨by rw [henvelope], hmemory, ?_, hretained, not_not.mp (refuseIf_ok.mp hearlier),
    hcurrent, by rw [henvelope]; exact hconsumed⟩
  unfold expectedFacts
  simp only [bind_eq_ok]
  refine ⟨admitted, hadmitted, _, hmemory, inputs, hinputs, ?_⟩
  rw [henvelope]
  rfl

section issued
variable {admission : CertificationAdmissionManifest contentDigest} {gatePlan : GatePlan}
  {manifest : GateResultManifest} {predecessors : List (GateCertificate contentDigest)}
  {issuance : GateCertificateIssuanceContext}
  {retainedCertificates : Option (List GateCertificateIdentity)}
  {certificate : GateCertificate contentDigest}

/-- The gates of a chain that an issued certificate extends. -/
theorem Issue.gates
    (h : Issue admission gatePlan manifest predecessors issuance retainedCertificates certificate) :
    predecessors.length + 1 = gatePlan.gate.1 ∧
      (predecessors ++ [certificate]).map (fun item => item.semanticEnvelope.gate.1) =
        List.range' 1 (predecessors.length + 1) := by
  have hlength : predecessors.length + 1 = gatePlan.gate.1 := by
    have hlen := congrArg List.length h.earlier
    rw [List.length_map, earlierGates, List.length_range'] at hlen
    have hpos := gatePlan.gate.2.1
    omega
  refine ⟨hlength, ?_⟩
  rw [List.map_append, h.earlier, earlierGates, ← hlength, List.range'_concat]
  simp [h.gate, ← hlength, Nat.add_comm]

theorem Issue.gate_lt
    (h : Issue admission gatePlan manifest predecessors issuance retainedCertificates certificate)
    {earlier : GateCertificate contentDigest} (hmem : earlier ∈ predecessors) :
    earlier.semanticEnvelope.gate.1 < gatePlan.gate.1 := by
  have hgate : earlier.semanticEnvelope.gate.1 ∈ earlierGates gatePlan.gate.1 := by
    rw [← h.earlier]
    exact List.mem_map.mpr ⟨earlier, hmem, rfl⟩
  rw [earlierGates, List.mem_range'_1] at hgate
  omega

/-- What is retained are identities of the predecessors, at most as many. -/
theorem Issue.retained_eq
    (h : Issue admission gatePlan manifest predecessors issuance retainedCertificates certificate) :
    retainedCertificates.getD [] =
        (predecessors.take (retainedCertificates.getD []).length).map GateCertificate.identity ∧
      (retainedCertificates.getD []).length ≤ predecessors.length := by
  have heq := (requireRetainedPrefix_eq_ok.mp h.retained).2
  refine ⟨heq, ?_⟩
  have hlen := congrArg List.length heq
  rw [List.length_map, List.length_take] at hlen
  omega

theorem Issue.fresh
    (h : Issue admission gatePlan manifest predecessors issuance retainedCertificates certificate) :
    certificate.identity ∉ retainedCertificates.getD [] := by
  intro hmem
  rw [h.retained_eq.1] at hmem
  obtain ⟨earlier, hearlier, hid⟩ := List.mem_map.mp hmem
  have hlt := h.gate_lt (List.mem_of_mem_take hearlier)
  have hgate : earlier.semanticEnvelope.gate = certificate.semanticEnvelope.gate :=
    congrArg GateCertificateIdentity.gate hid
  rw [hgate, h.gate] at hlt
  omega

/-- A chain validates with the certificate that was issued for it. -/
theorem Issue.validates
    (h : Issue admission gatePlan manifest predecessors issuance retainedCertificates certificate) :
    validateCertificateChain admission (predecessors ++ [certificate]) issuance.gateFiveInputs
      retainedCertificates = .ok (predecessors ++ [certificate]) := by
  unfold validateCertificateChain
  simp only [bind_eq_ok]
  obtain ⟨-, hgates⟩ := h.gates
  obtain ⟨hretained, hlength⟩ := h.retained_eq
  refine ⟨(), refuseIf_ok.mpr (not_not.mpr (by simpa using hgates)), retainedCertificates.getD [],
    requireRetainedPrefix_eq_ok.mpr ⟨rfl, ?_⟩, (), ?_, rfl⟩
  · rw [List.take_append_of_le_length hlength]
    exact hretained
  · rw [requireCurrentCertificates_eq_ok]
    intro i current hi
    rcases Nat.lt_or_ge i predecessors.length with hlt | hge
    · rw [List.getElem?_append_left hlt] at hi
      have hgate : current.semanticEnvelope.gate.1 ≠ 5 := by
        have hearlier := h.gate_lt (List.mem_of_getElem? hi)
        have hbound := gatePlan.gate.2.2
        omega
      rw [List.take_append_of_le_length hlt.le, requireCurrentCertificate_congr hgate]
      exact requireCurrentCertificates_eq_ok.mp h.current i current hi
    · rw [List.getElem?_append_right hge, List.getElem?_singleton] at hi
      split at hi
      · rename_i hzero
        cases hi
        have hi' : i = predecessors.length := by omega
        rw [hi', List.take_left', requireCurrentCertificate_fresh h.fresh, h.gate]
        · exact h.facts
        · rfl
      · cases hi

/-! ## Consumed artifacts -/

/-- A single entry comes from a single place. -/
theorem flatMap_eq_singleton {α β : Type} {f : α → List β} {xs : List α} {b : β}
    (h : xs.flatMap f = [b]) : ∃ (j : Nat) (a : α), xs[j]? = some a ∧ f a = [b] ∧
      ∀ (k : Nat) (c : α), xs[k]? = some c → f c ≠ [] → k = j := by
  induction xs with
  | nil => cases h
  | cons a xs ih =>
    rw [List.flatMap_cons, List.append_eq_singleton_iff] at h
    rcases h with ⟨hnil, hrest⟩ | ⟨hone, hnone⟩
    · obtain ⟨j, c, hj, hc, honly⟩ := ih hrest
      refine ⟨j + 1, c, by simpa using hj, hc, fun k d hk hne => ?_⟩
      cases k with
      | zero =>
        cases hk
        exact absurd hnil hne
      | succ k => rw [honly k d (by simpa using hk) hne]
    · refine ⟨0, a, rfl, hone, fun k d hk hne => ?_⟩
      cases k with
      | zero => rfl
      | succ k =>
        rw [List.getElem?_cons_succ] at hk
        exact absurd (List.flatMap_eq_nil_iff.mp hnone d (List.mem_of_getElem? hk)) hne

/-- The item is an artifact of just one of the certificates in front of a place. -/
def FromExactlyOne (certificates : List (GateCertificate contentDigest)) (i : Nat)
    (item : ConsumedArtifactIdentity) : Prop :=
  ∃ j < i, ∃ producer, certificates[j]? = some producer ∧
    (∃ artifact ∈ producer.semanticEnvelope.artifactInventory,
      item = consumedArtifact producer artifact) ∧
    ∀ k < i, ∀ other, certificates[k]? = some other →
      (∃ artifact ∈ other.semanticEnvelope.artifactInventory,
        artifact.artifactId = item.artifactId) → k = j

/-- What a gate consumes is bound to one of the certificates it was issued on. -/
theorem fromExactlyOne_of_bind {consumed : List ConsumedArtifactIdentity}
    (h : bindConsumedArtifacts gatePlan manifest predecessors = .ok consumed)
    {item : ConsumedArtifactIdentity} (hitem : item ∈ consumed) :
    FromExactlyOne predecessors predecessors.length item := by
  obtain ⟨artifactId, -, hbound⟩ := (mem_mapM h item).mp hitem
  split at hbound
  · rename_i producer artifact hmatches
    cases hbound
    rw [availableArtifacts, Keyed.lookup_grouped, List.map_eq_singleton_iff] at hmatches
    obtain ⟨⟨name, entry⟩, hentries, hentry⟩ := hmatches
    dsimp only at hentry
    subst hentry
    rw [List.filter_flatMap] at hentries
    obtain ⟨j, found, hj, hfound, honly⟩ := flatMap_eq_singleton hentries
    have hmem : (name, producer, artifact) ∈ _ := hfound.symm ▸ List.mem_singleton.mpr rfl
    obtain ⟨hmem, hname⟩ := List.mem_filter.mp hmem
    obtain ⟨listed, hlisted, heq⟩ := List.mem_map.mp hmem
    simp only [Prod.mk.injEq] at heq
    obtain ⟨hlistedName, hproducer, hartifact⟩ := heq
    subst hproducer hartifact
    refine ⟨j, (List.getElem?_eq_some_iff.mp hj).1, found, hj, ⟨listed, hlisted, rfl⟩, ?_⟩
    rintro k - other hk ⟨like, hlike, hid⟩
    refine honly k other hk fun hnil => ?_
    have hin : (like.artifactId, other, like) ∈ (other.semanticEnvelope.artifactInventory.map
        fun artifact => (artifact.artifactId, other, artifact)).filter
          fun e => e.1 = artifactId := by
      refine List.mem_filter.mpr ⟨List.mem_map.mpr ⟨like, hlike, rfl⟩, ?_⟩
      simp only [decide_eq_true_eq] at hname ⊢
      rw [hid, ← hname, ← hlistedName]
      rfl
    rw [hnil] at hin
    cases hin
  · cases hbound

/-- Certificates at one place of two chains that share a digest have the same content. -/
def ToldApart (certificates more : List (GateCertificate contentDigest)) : Prop :=
  ∀ (j : Nat) (p q : GateCertificate contentDigest), certificates[j]? = some p →
    more[j]? = some q →
      contentDigest (.certificate p.semanticEnvelope) =
          contentDigest (.certificate q.semanticEnvelope) →
        p.semanticEnvelope = q.semanticEnvelope

/-- A digest without collisions takes no certificate for another. -/
theorem toldApart_of_injective (h : Function.Injective contentDigest)
    (certificates more : List (GateCertificate contentDigest)) : ToldApart certificates more :=
  fun _ _ _ _ _ hdigest => Content.certificate.inj (h hdigest)

/-- A chain is not taken for another than the one that it begins with. -/
theorem toldApart_take (certificates : List (GateCertificate contentDigest)) (i : Nat) :
    ToldApart (certificates.take i) certificates := by
  intro j p q hp hq _
  rw [List.getElem?_take] at hp
  split at hp
  · rw [hp, Option.some.injEq] at hq
    rw [hq]
  · cases hp

/-- Chains of the same identities have the same artifacts. -/
theorem FromExactlyOne.transfer {certificates : List (GateCertificate contentDigest)} {i : Nat}
    (hlength : predecessors.length = i)
    (hidentities : predecessors.map GateCertificate.identity =
      (certificates.take i).map GateCertificate.identity)
    (happart : ToldApart predecessors certificates) {item : ConsumedArtifactIdentity}
    (h : FromExactlyOne predecessors i item) : FromExactlyOne certificates i item := by
  have hsame : ∀ j < i, ∀ p q, predecessors[j]? = some p → certificates[j]? = some q →
      p.semanticEnvelope = q.semanticEnvelope ∧ p.certificateDigest = q.certificateDigest := by
    intro j hj p q hp hq
    have hat := congrArg (·[j]?) hidentities
    simp only [List.getElem?_map, List.getElem?_take, if_pos hj, hp, hq, Option.map_some,
      Option.some.injEq] at hat
    have hdigest : p.certificateDigest = q.certificateDigest :=
      congrArg GateCertificateIdentity.certificateDigest hat
    refine ⟨happart j p q hp hq ?_, hdigest⟩
    rw [← p.digested, ← q.digested, hdigest]
  have hthere : ∀ j < i, ∃ p q, predecessors[j]? = some p ∧ certificates[j]? = some q := by
    intro j hj
    have hlen := congrArg List.length hidentities
    rw [List.length_map, List.length_map, List.length_take] at hlen
    have hp : j < predecessors.length := by omega
    have hq : j < certificates.length := by omega
    exact ⟨_, _, List.getElem?_eq_getElem hp, List.getElem?_eq_getElem hq⟩
  obtain ⟨j, hj, producer, hproducer, ⟨artifact, hartifact, hitem⟩, honly⟩ := h
  obtain ⟨p, q, hp, hq⟩ := hthere j hj
  rw [hproducer, Option.some.injEq] at hp
  subst hp
  obtain ⟨henvelope, hdigest⟩ := hsame j hj producer q hproducer hq
  refine ⟨j, hj, q, hq, ⟨artifact, henvelope ▸ hartifact, ?_⟩, ?_⟩
  · rw [hitem, consumedArtifact, consumedArtifact, henvelope, hdigest]
  · rintro k hk other hother ⟨like, hlike, hid⟩
    obtain ⟨p, q', hp, hq'⟩ := hthere k hk
    rw [hother, Option.some.injEq] at hq'
    subst hq'
    obtain ⟨henvelope', -⟩ := hsame k hk p other hp hother
    exact honly k hk p hp ⟨like, henvelope'.symm ▸ hlike, hid⟩

/-! ## Other admissions -/

/-- An admission and its memory inputs are those that another one issued a
certificate of the gate for. -/
structure SameGround (admission admission' : CertificationAdmissionManifest contentDigest)
    (gate : GateId) (gateFiveInputs gateFiveInputs' : Option GateFiveSemanticInputs) : Prop where
  repository : admission'.semanticEnvelope.repositoryId = admission.semanticEnvelope.repositoryId
  candidate : admission'.semanticEnvelope.candidateCodeTree =
    admission.semanticEnvelope.candidateCodeTree
  memory : gate.1 = 5 → gateFiveInputs' = gateFiveInputs
  /-- The inputs of the gate, except for identities of its memory inputs. -/
  gates : ∃ admitted admitted', admittedGateIdentity admission gate = .ok admitted ∧
    admittedGateIdentity admission' gate = .ok admitted' ∧
    admitted'.gateSemanticDigest = admitted.gateSemanticDigest ∧
    admitted'.repositoryGatePlanDigest = admitted.repositoryGatePlanDigest ∧
    (admitted'.semanticInputs.filter fun item =>
        item ∉ memoryIdentities contentDigest gateFiveInputs) =
      admitted.semanticInputs.filter fun item =>
        item ∉ memoryIdentities contentDigest gateFiveInputs

theorem expectedFacts_eq_ok {gate : GateId} {gateFiveInputs : Option GateFiveSemanticInputs}
    {facts : GateFacts} :
    expectedFacts admission gate predecessors gateFiveInputs = .ok facts ↔
      ∃ admitted memory inputs, admittedGateIdentity admission gate = .ok admitted ∧
        currentGateFiveInputs gate gateFiveInputs = .ok memory ∧
        gateInputs contentDigest admitted memory = .ok inputs ∧
        facts = {
          repositoryId := admission.semanticEnvelope.repositoryId
          candidateCodeTree := admission.semanticEnvelope.candidateCodeTree
          gateSemanticDigest := admitted.gateSemanticDigest
          repositoryGatePlanDigest := admitted.repositoryGatePlanDigest
          semanticInputs := inputs
          directPredecessors := predecessors.map GateCertificate.identity
          gateFiveInputs := memory } := by
  unfold expectedFacts
  simp only [bind_eq_ok, pure, Except.pure, Except.ok.injEq]
  constructor
  · rintro ⟨admitted, hadmitted, memory, hmemory, inputs, hinputs, hfacts⟩
    exact ⟨admitted, memory, inputs, hadmitted, hmemory, hinputs, hfacts.symm⟩
  · rintro ⟨admitted, memory, inputs, hadmitted, hmemory, hinputs, hfacts⟩
    exact ⟨admitted, hadmitted, memory, hmemory, inputs, hinputs, hfacts.symm⟩

/-- A certificate of a chain that validates with nothing retained. -/
theorem facts_of_validate {certificates : List (GateCertificate contentDigest)}
    {gateFiveInputs : Option GateFiveSemanticInputs}
    (h : validateCertificateChain admission certificates gateFiveInputs none = .ok certificates)
    {i : Nat} (hi : certificates[i]? = some certificate) :
    expectedFacts admission certificate.semanticEnvelope.gate (certificates.take i)
      gateFiveInputs = .ok certificate.semanticEnvelope.facts := by
  unfold validateCertificateChain at h
  simp only [bind_eq_ok] at h
  obtain ⟨_, _, retained, hretained, _, hcurrent, _⟩ := h
  obtain ⟨hnone, -⟩ := requireRetainedPrefix_eq_ok.mp hretained
  have hfresh : certificate.identity ∉ retained := by
    rw [hnone]
    exact List.not_mem_nil
  exact (requireCurrentCertificate_fresh hfresh).mp
    (requireCurrentCertificates_eq_ok.mp hcurrent i certificate hi)

/-- What validates a certificate is the ground it was issued on, and what the
certificate consumes is in the chain. -/
theorem Issue.sameGround
    (h : Issue admission gatePlan manifest predecessors issuance retainedCertificates certificate)
    {admission' : CertificationAdmissionManifest contentDigest}
    {certificates : List (GateCertificate contentDigest)}
    {gateFiveInputs : Option GateFiveSemanticInputs}
    (hvalid : validateCertificateChain admission' certificates gateFiveInputs none =
      .ok certificates) {i : Nat} (hi : certificates[i]? = some certificate) :
    SameGround admission admission' certificate.semanticEnvelope.gate issuance.gateFiveInputs
        gateFiveInputs ∧
      (ToldApart predecessors certificates →
        ∀ item ∈ certificate.semanticEnvelope.consumedArtifacts,
          FromExactlyOne certificates i item) := by
  have hfacts := h.facts
  have hmemory := h.memory
  rw [← h.gate] at hfacts hmemory
  obtain ⟨admitted, memory, inputs, hadmitted, hcurrent, hinputs, hissued⟩ :=
    expectedFacts_eq_ok.mp hfacts
  obtain ⟨admitted', memory', inputs', hadmitted', hcurrent', hinputs', hexpected⟩ :=
    expectedFacts_eq_ok.mp (facts_of_validate hvalid hi)
  rw [hmemory, Except.ok.injEq] at hcurrent
  subst hcurrent
  rw [hissued, GateFacts.mk.injEq] at hexpected
  obtain ⟨hrepository, hcandidate, hsemantic, hplan, hsame, hpredecessors, hfive⟩ := hexpected
  subst hsame hfive
  refine ⟨⟨hrepository.symm, hcandidate.symm, fun hgate => ?_,
    admitted, admitted', hadmitted, hadmitted', hsemantic.symm, hplan.symm,
    semanticInputs_eq hinputs hinputs'⟩, fun happart item hitem => ?_⟩
  · unfold currentGateFiveInputs at hcurrent'
    rw [if_pos hgate] at hcurrent'
    cases hnow : gateFiveInputs with
    | none =>
      rw [hnow] at hcurrent'
      cases hcurrent'
    | some five =>
      rw [hnow] at hcurrent'
      exact Except.ok.inj hcurrent'
  · have hlength : predecessors.length = i := by
      have hlen := congrArg List.length hpredecessors
      rw [List.length_map, List.length_map, List.length_take] at hlen
      have hbound := (List.getElem?_eq_some_iff.mp hi).1
      omega
    refine FromExactlyOne.transfer hlength hpredecessors happart ?_
    rw [← hlength]
    exact fromExactlyOne_of_bind h.consumed hitem

end issued

/-! ## Finalization -/

/-- A finalization authority is current when compiling it gives it again. -/
theorem validateFinalizationCurrentness_ok_iff
    {authority : FinalizationCertificateAuthority contentDigest}
    {admission : CertificationAdmissionManifest contentDigest}
    {certificates : List (GateCertificate contentDigest)}
    {currentInputs : FinalizationCurrentInputs}
    {retainedCertificates : Option (List GateCertificateIdentity)} :
    (∃ validated, validateFinalizationCurrentness authority admission certificates currentInputs
      retainedCertificates = .ok validated) ↔
      compileFinalizationAuthority admission certificates currentInputs authority.provenance
        retainedCertificates = .ok authority := by
  unfold validateFinalizationCurrentness
  simp only [bind_eq_ok]
  constructor
  · rintro ⟨_, expected, hexpected, _, hequal, -⟩
    rw [hexpected, not_not.mp (refuseIf_ok.mp hequal)]
  · exact fun h => ⟨authority, authority, h, (), refuseIf_ok.mpr (not_not.mpr rfl), rfl⟩

/-- What validates is the chain that was given. -/
theorem validateCertificateChain_eq {admission : CertificationAdmissionManifest contentDigest}
    {certificates validated : List (GateCertificate contentDigest)}
    {gateFiveInputs : Option GateFiveSemanticInputs}
    {retainedCertificates : Option (List GateCertificateIdentity)}
    (h : validateCertificateChain admission certificates gateFiveInputs retainedCertificates =
      .ok validated) : validated = certificates := by
  unfold validateCertificateChain at h
  simp only [bind_eq_ok] at h
  obtain ⟨_, -, _, -, _, -, heq⟩ := h
  exact (Except.ok.inj heq).symm

theorem validateCertificateChain_of_isSome
    {admission : CertificationAdmissionManifest contentDigest}
    {certificates : List (GateCertificate contentDigest)}
    {gateFiveInputs : Option GateFiveSemanticInputs}
    {retainedCertificates : Option (List GateCertificateIdentity)}
    (h : (validateCertificateChain admission certificates gateFiveInputs
      retainedCertificates).toOption.isSome = true) :
    validateCertificateChain admission certificates gateFiveInputs retainedCertificates =
      .ok certificates := by
  cases hvalid : validateCertificateChain admission certificates gateFiveInputs
      retainedCertificates with
  | error refusal =>
    rw [hvalid] at h
    cases h
  | ok validated => rw [validateCertificateChain_eq hvalid]

end AgentsRemember.Certification
