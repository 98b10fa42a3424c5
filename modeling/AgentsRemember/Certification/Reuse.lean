import AgentsRemember.Certification.Chains
import AgentsRemember.Certification.Invalidation
import AgentsRemember.Certification.Proving

/-!
# Certification — Reuse

What a reuse plan is worth. A certificate is reused where no change bears on it
and every certificate up to it holds, against the admission or, in front of an
explicit resume, by its lineage alone.
-/

namespace AgentsRemember.Certification

open Checks Attempts

variable {contentDigest : Content → String}

/-- Certificates of the gates from the first one on, in order. -/
structure CertificatePrefix (contentDigest : Content → String) where
  certificates : List (GateCertificate contentDigest)
  ordered : certificates.map (fun item => item.semanticEnvelope.gate.1) =
    List.range' 1 certificates.length

theorem CertificatePrefix.gate_eq {chain : CertificatePrefix contentDigest} {i : Nat}
    {certificate : GateCertificate contentDigest}
    (h : chain.certificates[i]? = some certificate) : certificate.semanticEnvelope.gate.1 = i + 1 := by
  have hat := congrArg (·[i]?) chain.ordered
  have hi := (List.getElem?_eq_some_iff.mp h).1
  simp only [List.getElem?_map, h, Option.map_some, List.getElem?_range' hi, Option.some.injEq] at hat
  omega

theorem CertificatePrefix.length_le (chain : CertificatePrefix contentDigest) :
    chain.certificates.length ≤ 5 := by
  by_contra hlong
  have hget := List.getElem?_eq_getElem (show 5 < chain.certificates.length by omega)
  have hgate := chain.gate_eq hget
  have hbound := chain.certificates[5].semanticEnvelope.gate.2.2
  omega

/-! ## What a certificate has to hold to -/

section holding
variable (admission : CertificationAdmissionManifest contentDigest)
  (certificates : List (GateCertificate contentDigest))
  (gateFiveInputs : Option GateFiveSemanticInputs)

/-- The certificate is what the admission expects at its place. -/
def IsCurrent (i : Nat) (certificate : GateCertificate contentDigest) : Prop :=
  expectedFacts admission certificate.semanticEnvelope.gate (certificates.take i) gateFiveInputs =
    .ok certificate.semanticEnvelope.facts

/-- The certificate is of the same repository, with the exact lineage of its place. -/
def SameLineage (i : Nat) (certificate : GateCertificate contentDigest) : Prop :=
  certificate.semanticEnvelope.repositoryId = admission.semanticEnvelope.repositoryId ∧
    certificate.semanticEnvelope.directPredecessors =
      (certificates.take i).map GateCertificate.identity

/-- Of the first `kept` certificates only the lineage counts. -/
def Holds (kept i : Nat) (certificate : GateCertificate contentDigest) : Prop :=
  if i < kept then SameLineage admission certificates i certificate
  else IsCurrent admission certificates gateFiveInputs i certificate

end holding

section holding
variable {admission : CertificationAdmissionManifest contentDigest}
  {gateFiveInputs : Option GateFiveSemanticInputs}

theorem IsCurrent.sameLineage {certificates : List (GateCertificate contentDigest)} {i : Nat}
    {certificate : GateCertificate contentDigest}
    (h : IsCurrent admission certificates gateFiveInputs i certificate) :
    SameLineage admission certificates i certificate := by
  obtain ⟨_, _, _, -, -, -, hfacts⟩ := expectedFacts_eq_ok.mp h
  exact ⟨congrArg GateFacts.repositoryId hfacts, congrArg GateFacts.directPredecessors hfacts⟩

variable (chain : CertificatePrefix contentDigest)

theorem identity_mem_take {i kept : Nat} {certificate : GateCertificate contentDigest}
    (hi : chain.certificates[i]? = some certificate) :
    certificate.identity ∈ (chain.certificates.take kept).map GateCertificate.identity ↔
      i < kept := by
  rw [List.mem_map]
  constructor
  · rintro ⟨other, hother, hid⟩
    obtain ⟨j, hj⟩ := List.mem_iff_getElem?.mp hother
    rw [List.getElem?_take] at hj
    split at hj
    next hlt =>
      have hgate : other.semanticEnvelope.gate = certificate.semanticEnvelope.gate :=
        congrArg GateCertificateIdentity.gate hid
      have hother := chain.gate_eq hj
      have hcertificate := chain.gate_eq hi
      rw [hgate] at hother
      omega
    · cases hj
  · intro hlt
    refine ⟨certificate, List.mem_of_getElem? (i := i) ?_, rfl⟩
    rw [List.getElem?_take, if_pos hlt, hi]

theorem requireCurrent_iff_holds {i n kept : Nat} {certificate : GateCertificate contentDigest}
    (hi : chain.certificates[i]? = some certificate) (hn : i < n) :
    requireCurrentCertificate admission certificate ((chain.certificates.take n).take i)
        gateFiveInputs ((chain.certificates.take kept).map GateCertificate.identity) = .ok () ↔
      Holds admission chain.certificates gateFiveInputs kept i certificate := by
  rw [List.take_take, Nat.min_eq_left hn.le]
  by_cases hkept : i < kept
  · rw [Holds, if_pos hkept]
    simp only [requireCurrentCertificate]
    rw [if_pos ((identity_mem_take chain hi).mpr hkept)]
    simp [SameLineage]
  · rw [Holds, if_neg hkept,
      requireCurrentCertificate_fresh (mt (identity_mem_take chain hi).mp hkept)]
    rfl

/-- A beginning of the chain is one itself. -/
def CertificatePrefix.take (n : Nat) : CertificatePrefix contentDigest where
  certificates := chain.certificates.take n
  ordered := by
    rw [List.map_take, chain.ordered, List.length_take]
    by_cases hn : n ≤ chain.certificates.length
    · rw [List.take_range'_of_length_ge hn, Nat.min_eq_left hn]
    · rw [List.take_range'_of_length_le (by omega), Nat.min_eq_right (by omega)]

/-- A beginning validates with the identities it is told to keep if these are
its own, and if it holds. -/
theorem validate_iff (kept n : Nat) (retained : Option (List GateCertificateIdentity))
    (hretained : retained.getD [] =
      (chain.certificates.take kept).map GateCertificate.identity) :
    (∃ validated, validateCertificateChain admission (chain.certificates.take n) gateFiveInputs
        retained = .ok validated) ↔
      min kept chain.certificates.length ≤ n ∧
        ∀ i < n, ∀ certificate, chain.certificates[i]? = some certificate →
          Holds admission chain.certificates gateFiveInputs kept i certificate := by
  have hprefix : retained.getD [] = ((chain.certificates.take n).take
      (retained.getD []).length).map GateCertificate.identity ↔
        min kept chain.certificates.length ≤ n := by
    rw [hretained, List.length_map, List.length_take, List.take_take]
    constructor
    · intro h
      have hlength := congrArg List.length h
      simp only [List.length_map, List.length_take] at hlength
      omega
    · intro h
      congr 1
      rw [List.take_eq_take_iff]
      omega
  have hcurrent : requireCurrentCertificates admission gateFiveInputs (retained.getD [])
      (chain.certificates.take n) = .ok () ↔
        ∀ i < n, ∀ certificate, chain.certificates[i]? = some certificate →
          Holds admission chain.certificates gateFiveInputs kept i certificate := by
    rw [requireCurrentCertificates_eq_ok, hretained]
    constructor
    · intro h i hi certificate hcertificate
      refine (requireCurrent_iff_holds chain hcertificate hi).mp (h i certificate ?_)
      rw [List.getElem?_take, if_pos hi, hcertificate]
    · intro h i certificate hcertificate
      rw [List.getElem?_take] at hcertificate
      split at hcertificate
      next hi => exact (requireCurrent_iff_holds chain hcertificate hi).mpr (h i hi _ hcertificate)
      · cases hcertificate
  rw [← hprefix, ← hcurrent]
  unfold validateCertificateChain
  simp only [bind_eq_ok, requireRetainedPrefix_eq_ok]
  constructor
  · rintro ⟨_, _, -, found, ⟨rfl, hown⟩, _, hvalid, -⟩
    exact ⟨hown, hvalid⟩
  · rintro ⟨hown, hvalid⟩
    exact ⟨_, (), refuseIf_ok.mpr (not_not.mpr (chain.take n).ordered), _, ⟨rfl, hown⟩, (),
      hvalid, rfl⟩

end holding

/-! ## Refusals -/

/-- The refusals of the contracts are those that the drift closure catches. -/
def Refusal.OfContract (refusal : Refusal) : Prop :=
  ∃ detail code path findingDetail, refusal = .contract detail code path findingDetail

section refusals
variable {admission : CertificationAdmissionManifest contentDigest}
  {gateFiveInputs : Option GateFiveSemanticInputs}

theorem ofContract_of_canonicalize {inputs : List CertificateInputIdentity} {refusal : Refusal}
    (h : canonicalizeCertificateInputs inputs = .error refusal) : refusal.OfContract := by
  obtain ⟨item, -, rfl⟩ := Canonical.canonicalize_error h
  exact ⟨_, _, _, _, rfl⟩

theorem admittedGateIdentity_ok (gate : GateId) :
    ∃ admitted, admittedGateIdentity admission gate = .ok admitted := by
  unfold admittedGateIdentity
  split
  next item _ => exact ⟨item, rfl⟩
  next hnone =>
    -- the admission has a gate of every number
    have hgate : gate.1 ∈ admission.semanticEnvelope.gates.map fun item => item.gate.1 := by
      rw [admission.semanticEnvelope.ordered]
      have hbounds := gate.2
      simp only [List.mem_cons, List.not_mem_nil, or_false]
      omega
    obtain ⟨item, hitem, heq⟩ := List.mem_map.mp hgate
    have hnot := List.find?_eq_none.mp hnone item hitem
    exact absurd (Subtype.ext heq) (by simpa using hnot)

theorem ofContract_of_expectedFacts {gate : GateId}
    {predecessors : List (GateCertificate contentDigest)} {refusal : Refusal}
    (h : expectedFacts admission gate predecessors gateFiveInputs = .error refusal) :
    refusal.OfContract := by
  obtain ⟨admitted, hadmitted⟩ := @admittedGateIdentity_ok contentDigest admission gate
  unfold expectedFacts at h
  simp only [bind_eq_error, hadmitted, Except.ok.injEq, exists_eq_left', reduceCtorEq,
    false_or] at h
  obtain hmemory | ⟨memory, hmemory, hinputs | ⟨inputs, -, hdone⟩⟩ := h
  · unfold currentGateFiveInputs at hmemory
    split at hmemory
    · split at hmemory
      · cases hmemory; exact ⟨_, _, _, _, rfl⟩
      · cases hmemory
    · cases hmemory
  · unfold gateInputs at hinputs
    obtain hfive | ⟨five, -, hrest⟩ := bind_eq_error.mp hinputs
    · cases memory with
      | none => cases hfive
      | some inputs => exact ofContract_of_canonicalize hfive
    · exact ofContract_of_canonicalize hrest
  · cases hdone

theorem ofContract_of_refuseIf {condition : Prop} [Decidable condition] {refusal found : Refusal}
    (hrefusal : refusal.OfContract) (h : refuseIf condition refusal = .error found) :
    found.OfContract := by
  unfold refuseIf at h
  split at h
  · cases h; exact hrefusal
  · cases h

theorem ofContract_of_requireCurrent {certificate : GateCertificate contentDigest}
    {predecessors : List (GateCertificate contentDigest)}
    {retained : List GateCertificateIdentity} {refusal : Refusal}
    (h : requireCurrentCertificate admission certificate predecessors gateFiveInputs retained =
      .error refusal) : refusal.OfContract := by
  simp only [requireCurrentCertificate] at h
  split at h
  · unfold refuseIf at h
    split at h
    · cases h; exact ⟨_, _, _, _, rfl⟩
    · split at h
      · cases h; exact ⟨_, _, _, _, rfl⟩
      · cases h
  · obtain hfacts | ⟨facts, -, hstale⟩ := bind_eq_error.mp h
    · exact ofContract_of_expectedFacts hfacts
    · exact ofContract_of_refuseIf ⟨_, _, _, _, rfl⟩ hstale

theorem ofContract_of_validate {certificates : List (GateCertificate contentDigest)}
    {retained : Option (List GateCertificateIdentity)} {refusal : Refusal}
    (h : validateCertificateChain admission certificates gateFiveInputs retained =
      .error refusal) : refusal.OfContract := by
  unfold validateCertificateChain at h
  obtain hordered | ⟨_, -, h⟩ := bind_eq_error.mp h
  · exact ofContract_of_refuseIf ⟨_, _, _, _, rfl⟩ hordered
  obtain hprefix | ⟨found, -, h⟩ := bind_eq_error.mp h
  · simp only [requireRetainedPrefix] at hprefix
    split at hprefix
    · cases hprefix; exact ⟨_, _, _, _, rfl⟩
    · cases hprefix
  obtain hcurrent | ⟨_, -, h⟩ := bind_eq_error.mp h
  · obtain ⟨item, -, hitem⟩ := forM_eq_error hcurrent
    exact ofContract_of_requireCurrent hitem
  · cases h

end refusals

/-! ## Drift and resumes -/

section plan
variable (admission : CertificationAdmissionManifest contentDigest)
  (gateFiveInputs : Option GateFiveSemanticInputs) (chain : CertificatePrefix contentDigest)

/-- Some certificate up to this gate does not hold. -/
def Drifted (kept gate : Nat) : Prop :=
  ∃ i certificate, chain.certificates[i]? = some certificate ∧ i + 1 ≤ gate ∧
    ¬Holds admission chain.certificates gateFiveInputs kept i certificate

/-- From a place up to which everything holds, the closure is that of the
first certificate that does not. -/
theorem identityDriftClosure_from (kept j : Nat)
    (rest : List (GateCertificate contentDigest × Nat))
    (hrest : rest = chain.certificates.zipIdx.drop j)
    (hheld : ∀ i < j, ∀ certificate, chain.certificates[i]? = some certificate →
      Holds admission chain.certificates gateFiveInputs kept i certificate) :
    ∃ drift, identityDriftClosure admission chain.certificates gateFiveInputs
        ((chain.certificates.take kept).map GateCertificate.identity) rest = .ok drift ∧
      ∀ gate : GateId, gate ∈ drift ↔ Drifted admission gateFiveInputs chain kept gate.1 := by
  induction rest generalizing j with
  | nil =>
    refine ⟨[], rfl, fun gate => ?_⟩
    have hlength : chain.certificates.length ≤ j := by
      have hnil := List.drop_eq_nil_iff.mp hrest.symm
      rwa [List.length_zipIdx] at hnil
    constructor
    · exact fun h => absurd h List.not_mem_nil
    · rintro ⟨i, certificate, hi, -, hnot⟩
      have hlt := (List.getElem?_eq_some_iff.mp hi).1
      exact absurd (hheld i (by omega) certificate hi) hnot
  | cons item rest ih =>
    obtain ⟨certificate, index⟩ := item
    have hget : chain.certificates.zipIdx[j]? = some (certificate, index) := by
      have hhead := congrArg (·[0]?) hrest
      simpa using hhead.symm
    obtain ⟨rfl, hj⟩ : index = j ∧ chain.certificates[j]? = some certificate := by
      rw [List.getElem?_zipIdx, Option.map_eq_some_iff] at hget
      obtain ⟨found, hfound, heq⟩ := hget
      rw [Prod.mk.injEq] at heq
      exact ⟨by omega, by rw [hfound, heq.1]⟩
    have htail : rest = chain.certificates.zipIdx.drop (index + 1) := by
      have htail := congrArg List.tail hrest
      rwa [List.tail_cons, List.tail_drop] at htail
    have hkept : (some (((chain.certificates.take kept).map GateCertificate.identity).take
        (index + 1))).getD [] =
          (chain.certificates.take (min (index + 1) kept)).map GateCertificate.identity := by
      rw [Option.getD_some, ← List.map_take, List.take_take]
    -- up to this place it makes no difference how much further the hint goes
    have hsame : ∀ i < index + 1, ∀ c,
        Holds admission chain.certificates gateFiveInputs (min (index + 1) kept) i c ↔
          Holds admission chain.certificates gateFiveInputs kept i c := by
      intro i hi c
      by_cases hlt : i < kept
      · rw [Holds, Holds, if_pos hlt, if_pos (by omega)]
      · rw [Holds, Holds, if_neg hlt, if_neg (by omega)]
    have hvalid := @validate_iff contentDigest admission gateFiveInputs chain
      (min (index + 1) kept) (index + 1) _ hkept
    rw [identityDriftClosure]
    split
    next validated hok =>
      obtain ⟨-, hholds⟩ := hvalid.mp ⟨validated, hok⟩
      refine ih (index + 1) htail fun i hi c hc => ?_
      exact (hsame i hi c).mp (hholds i hi c hc)
    next herror =>
      refine ⟨_, rfl, fun gate => ?_⟩
      have hnot : ¬Holds admission chain.certificates gateFiveInputs kept index certificate := by
        intro hholds
        have hall : ∀ i < index + 1, ∀ c, chain.certificates[i]? = some c →
            Holds admission chain.certificates gateFiveInputs (min (index + 1) kept) i c := by
          intro i hi c hc
          rw [hsame i hi c]
          obtain hlt | rfl := Nat.lt_succ_iff_lt_or_eq.mp hi
          · exact hheld i hlt c hc
          · cases hj.symm.trans hc
            exact hholds
        obtain ⟨validated, hok⟩ := hvalid.mpr ⟨by omega, hall⟩
        rw [hok] at herror
        cases herror
      rw [mem_downstreamGates, chain.gate_eq hj]
      constructor
      · exact fun hle => ⟨index, certificate, hj, hle, hnot⟩
      · rintro ⟨i, c, hc, hle, hfails⟩
        by_contra hlt
        exact hfails (hheld i (by omega) c hc)
    next refusal hother herror =>
      obtain ⟨detail, code, path, findingDetail, rfl⟩ := ofContract_of_validate herror
      exact absurd rfl (hother detail code path findingDetail)

/-- An explicit resume starts at this gate. -/
def Resumes (changes : List CertificateInputChange) (gate : Nat) : Prop :=
  ∃ change ∈ changes, change.changeClass = .closeoutResume ∧
    ∃ start ∈ change.consumingGates, start.1 = gate

/-- The gate of an explicit resume that no change precedes. -/
def UnprecededResume (changes : List CertificateInputChange) (gate : Nat) : Prop :=
  Resumes changes gate ∧ ∀ earlier < gate, ¬Touched changes earlier

/-- How many certificates are kept by their lineage: those in front of the gate
of an explicit resume that no change precedes. -/
def KeptByResume (changes : List CertificateInputChange) (kept : Nat) : Prop :=
  (∃ gate, UnprecededResume changes gate ∧ kept = gate - 1) ∨
    (∀ gate, ¬UnprecededResume changes gate) ∧ kept = 0

theorem Resumes.touched {changes : List CertificateInputChange} {gate : Nat}
    (h : Resumes changes gate) : Touched changes gate := by
  obtain ⟨change, hchange, hclass, start, hstart, rfl⟩ := h
  exact ⟨change, hchange, start, by simpa [changeStartGates, hclass] using hstart, Nat.le_refl _⟩

theorem UnprecededResume.unique {changes : List CertificateInputChange} {gate gate' : Nat}
    (h : UnprecededResume changes gate) (h' : UnprecededResume changes gate') : gate = gate' := by
  obtain hlt | rfl | hlt := Nat.lt_trichotomy gate gate'
  · exact absurd h.1.touched (h'.2 gate hlt)
  · rfl
  · exact absurd h'.1.touched (h.2 gate' hlt)

/-- The prefix that an explicit resume keeps, where another change does not precede it. -/
theorem explicitResumePrefix_eq (certificates : List (GateCertificate contentDigest))
    (changes : List CertificateInputChange) : ∃ kept, KeptByResume changes kept ∧
      explicitResumePrefix certificates changes
        (classifyCertificateInvalidation changes).invalidatedGates = certificates.take kept := by
  have hstarts : ∀ gate, gate ∈ ((changes.filter fun change =>
      change.changeClass = .closeoutResume).filterMap fun change =>
        change.consumingGates.head?).map Subtype.val ↔ Resumes changes gate := by
    intro gate
    simp only [List.mem_map, List.mem_filterMap, List.mem_filter, decide_eq_true_eq, Resumes]
    constructor
    · rintro ⟨start, ⟨change, ⟨hchange, hclass⟩, hhead⟩, rfl⟩
      exact ⟨change, hchange, hclass, start, List.mem_of_head? hhead, rfl⟩
    · rintro ⟨change, hchange, hclass, start, hstart, rfl⟩
      obtain ⟨only, honly⟩ := List.length_eq_one_iff.mp (change.resumesOnce hclass)
      rw [honly, List.mem_singleton] at hstart
      exact ⟨start, ⟨change, ⟨hchange, hclass⟩, by rw [honly, hstart]; rfl⟩, rfl⟩
  unfold explicitResumePrefix
  dsimp only
  split
  next hnone =>
    refine ⟨0, .inr ⟨fun gate hresume => ?_, rfl⟩, rfl⟩
    have hmem := (hstarts gate).mpr hresume.1
    rw [List.min?_eq_none_iff.mp hnone] at hmem
    cases hmem
  next first hfirst =>
    obtain ⟨hmem, hleast⟩ := List.min?_eq_some_iff.mp hfirst
    split
    next hpreceded =>
      obtain ⟨gate, hgate, hlt⟩ := hpreceded
      refine ⟨0, .inr ⟨fun other hresume => ?_, rfl⟩, rfl⟩
      have hle := hleast other ((hstarts other).mpr hresume.1)
      exact hresume.2 gate.1 (by omega) (mem_invalidatedGates.mp hgate)
    next hfree =>
      refine ⟨first - 1, .inl ⟨first, ⟨(hstarts first).mp hmem, ?_⟩, rfl⟩, rfl⟩
      refine fun gate hlt htouched => hfree ?_
      obtain ⟨change, hchange, start, hstart, hle⟩ := htouched
      exact ⟨start, mem_invalidatedGates.mpr ⟨change, hchange, start, hstart, Nat.le_refl _⟩,
        by omega⟩

/-! ## The plan -/

/-- The certificate is free of every change, and holds: against the admission,
or by its lineage in front of an explicit resume that no change precedes. -/
def Reusable (changes : List CertificateInputChange) (i : Nat)
    (certificate : GateCertificate contentDigest) : Prop :=
  ¬Touched changes (i + 1) ∧
    (IsCurrent admission chain.certificates gateFiveInputs i certificate ∨
      (∃ gate, UnprecededResume changes gate ∧ i + 1 < gate) ∧
        SameLineage admission chain.certificates i certificate)

/-- The first `n` certificates, and not one more. -/
def LongestReusable (changes : List CertificateInputChange) (n : Nat) : Prop :=
  n ≤ chain.certificates.length ∧
    (∀ i < n, ∀ certificate, chain.certificates[i]? = some certificate →
      Reusable admission gateFiveInputs chain changes i certificate) ∧
    ∀ certificate, chain.certificates[n]? = some certificate →
      ¬Reusable admission gateFiveInputs chain changes n certificate

/-- What the claims of a plan are: the reused prefix, the gate after it and the
gates from that one on. -/
structure PlanExact (changes : List CertificateInputChange) (plan : CertificateReusePlan) :
    Prop where
  reused : ∃ n, LongestReusable admission gateFiveInputs chain changes n ∧
    plan.reusedCertificates = (chain.certificates.take n).map GateCertificate.identity
  first : plan.firstGateToRun.map Subtype.val =
    if plan.reusedCertificates.length = 5 then none else some (plan.reusedCertificates.length + 1)
  invalidated : plan.invalidatedGates = match plan.firstGateToRun with
    | none => []
    | some gate => downstreamGates gate

/-- In front of an explicit resume that no change precedes, every certificate is
of the admitted repository and has its exact lineage. -/
def ResumeLineage (changes : List CertificateInputChange) : Prop :=
  ∀ gate, UnprecededResume changes gate → ∀ i certificate,
    chain.certificates[i]? = some certificate → i + 1 < gate →
      SameLineage admission chain.certificates i certificate

variable {admission gateFiveInputs chain}

/-- A certificate may be reused where no change bears on it and it holds. -/
theorem reusable_iff {changes : List CertificateInputChange} {kept i : Nat}
    {certificate : GateCertificate contentDigest}
    (hkept : KeptByResume changes kept) :
    Reusable admission gateFiveInputs chain changes i certificate ↔
      ¬Touched changes (i + 1) ∧
        Holds admission chain.certificates gateFiveInputs kept i certificate := by
  unfold Reusable Holds
  refine and_congr_right fun _ => ?_
  have hresumes : (∃ gate, UnprecededResume changes gate ∧ i + 1 < gate) ↔ i < kept := by
    obtain ⟨gate, hgate, rfl⟩ | ⟨hnone, rfl⟩ := hkept
    · constructor
      · rintro ⟨other, hother, hlt⟩
        rw [hgate.unique hother]
        omega
      · exact fun hlt => ⟨gate, hgate, by omega⟩
    · constructor
      · rintro ⟨other, hother, -⟩
        exact absurd hother (hnone other)
      · omega
  rw [hresumes]
  split
  next hlt => exact ⟨fun h => h.elim IsCurrent.sameLineage And.right, fun h => .inr ⟨hlt, h⟩⟩
  next hge => exact ⟨fun h => h.elim id fun h => absurd h.1 hge, .inl⟩

theorem LongestReusable.unique {changes : List CertificateInputChange} {n n' : Nat}
    (h : LongestReusable admission gateFiveInputs chain changes n)
    (h' : LongestReusable admission gateFiveInputs chain changes n') : n = n' := by
  obtain hlt | rfl | hlt := Nat.lt_trichotomy n n'
  · have hget := List.getElem?_eq_getElem (show n < chain.certificates.length by have := h'.1; omega)
    exact absurd (h'.2.1 n hlt _ hget) (h.2.2 _ hget)
  · rfl
  · have hget := List.getElem?_eq_getElem (show n' < chain.certificates.length by have := h.1; omega)
    exact absurd (h.2.1 n' hlt _ hget) (h'.2.2 _ hget)

section more
variable {pre post : List CertificateInputChange} {change : CertificateInputChange}

theorem Touched.more {gate : Nat} (h : Touched (pre ++ post) gate) :
    Touched (pre ++ change :: post) gate := by
  obtain ⟨other, hother, hstart⟩ := h
  refine ⟨other, ?_, hstart⟩
  simp only [List.mem_append, List.mem_cons] at hother ⊢
  tauto

theorem UnprecededResume.of_more (hchange : change.changeClass ≠ .closeoutResume) {gate : Nat}
    (h : UnprecededResume (pre ++ change :: post) gate) : UnprecededResume (pre ++ post) gate := by
  refine ⟨?_, fun earlier hearlier => mt Touched.more (h.2 earlier hearlier)⟩
  obtain ⟨other, hother, hclass, hstart⟩ := h.1
  refine ⟨other, ?_, hclass, hstart⟩
  simp only [List.mem_append, List.mem_cons] at hother ⊢
  obtain hother | rfl | hother := hother
  · exact .inl hother
  · exact absurd hclass hchange
  · exact .inr hother

end more

/-- A further change that is no explicit resume frees no certificate. -/
theorem Reusable.of_more {pre post : List CertificateInputChange} {change : CertificateInputChange}
    (hchange : change.changeClass ≠ .closeoutResume) {i : Nat}
    {certificate : GateCertificate contentDigest}
    (h : Reusable admission gateFiveInputs chain (pre ++ change :: post) i certificate) :
    Reusable admission gateFiveInputs chain (pre ++ post) i certificate := by
  refine ⟨mt Touched.more h.1, h.2.imp_right fun ⟨⟨gate, hresume, hlt⟩, hlineage⟩ => ?_⟩
  exact ⟨⟨gate, hresume.of_more hchange, hlt⟩, hlineage⟩

theorem LongestReusable.of_more {pre post : List CertificateInputChange}
    {change : CertificateInputChange} (hchange : change.changeClass ≠ .closeoutResume) {n n' : Nat}
    (h : LongestReusable admission gateFiveInputs chain (pre ++ post) n)
    (h' : LongestReusable admission gateFiveInputs chain (pre ++ change :: post) n') : n' ≤ n := by
  by_contra hlt
  have hget := List.getElem?_eq_getElem (show n < chain.certificates.length by have := h'.1; omega)
  exact h.2.2 _ hget ((h'.2.1 n (by omega) _ hget).of_more hchange)

/-- How far a list goes before a predicate fails. -/
theorem takeWhile_eq_take {α : Type} (p : α → Bool) (xs : List α) : ∃ n ≤ xs.length,
    xs.takeWhile p = xs.take n ∧ (∀ i < n, ∀ x, xs[i]? = some x → p x = true) ∧
      ∀ x, xs[n]? = some x → p x = false := by
  refine ⟨xs.findIdx fun x => !p x, List.findIdx_le_length, List.takeWhile_eq_take_findIdx_not,
    ?_, ?_⟩
  · intro i hi x hx
    obtain ⟨hlt, rfl⟩ := List.getElem?_eq_some_iff.mp hx
    simpa using List.not_of_lt_findIdx hi
  · intro x hx
    obtain ⟨hlt, rfl⟩ := List.getElem?_eq_some_iff.mp hx
    simpa using List.findIdx_getElem (w := hlt)

/-- The least of the gates after the first `n`. -/
theorem find_gate_after {p : GateId → Bool} {n : Nat} (hp : ∀ gate, p gate = true ↔ n < gate.1)
    (hn : n ≤ 5) :
    (allGates.find? p).map Subtype.val = if n = 5 then none else some (n + 1) := by
  obtain rfl : p = fun gate => decide (n < gate.1) := by
    funext gate
    rw [Bool.eq_iff_iff, hp gate, decide_eq_true_eq]
  obtain rfl | rfl | rfl | rfl | rfl | rfl :
      n = 0 ∨ n = 1 ∨ n = 2 ∨ n = 3 ∨ n = 4 ∨ n = 5 := by omega
  all_goals rfl

/-- The place of the first certificate that a change bears on, or up to which
one does not hold. -/
structure StopsAt (admission : CertificationAdmissionManifest contentDigest)
    (gateFiveInputs : Option GateFiveSemanticInputs) (chain : CertificatePrefix contentDigest)
    (changes : List CertificateInputChange) (kept n : Nat) : Prop where
  le : n ≤ chain.certificates.length
  free : ∀ i < n, ∀ certificate, chain.certificates[i]? = some certificate →
    ¬Touched changes (i + 1) ∧ ¬Drifted admission gateFiveInputs chain kept (i + 1)
  stop : ∀ certificate, chain.certificates[n]? = some certificate →
    Touched changes (n + 1) ∨ Drifted admission gateFiveInputs chain kept (n + 1)

section stops
variable {changes : List CertificateInputChange} {kept n : Nat}

theorem StopsAt.holds (h : StopsAt admission gateFiveInputs chain changes kept n) :
    ∀ i < n, ∀ certificate, chain.certificates[i]? = some certificate →
      Holds admission chain.certificates gateFiveInputs kept i certificate := by
  intro i hi certificate hget
  by_contra hnot
  exact (h.free i hi certificate hget).2 ⟨i, certificate, hget, Nat.le_refl _, hnot⟩

theorem StopsAt.longest (h : StopsAt admission gateFiveInputs chain changes kept n)
    (hkept : KeptByResume changes kept) :
    LongestReusable admission gateFiveInputs chain changes n := by
  refine ⟨h.le, fun i hi certificate hget => ?_, fun certificate hget hreusable => ?_⟩
  · exact (reusable_iff hkept).mpr
      ⟨(h.free i hi certificate hget).1, h.holds i hi certificate hget⟩
  · obtain ⟨huntouched, hat⟩ := (reusable_iff hkept).mp hreusable
    obtain htouched | ⟨i, other, hother, hle, hnot⟩ := h.stop certificate hget
    · exact huntouched htouched
    · obtain hlt | rfl : i < n ∨ i = n := by omega
      · exact hnot (h.holds i hlt other hother)
      · cases hget.symm.trans hother
        exact hnot hat

/-- The gates that are not reused are those after the stop. -/
theorem StopsAt.gate_iff (h : StopsAt admission gateFiveInputs chain changes kept n)
    (gate : GateId) :
    (Touched changes gate.1 ∨ Drifted admission gateFiveInputs chain kept gate.1) ∨
        chain.certificates.length < gate.1 ↔ n < gate.1 := by
  have hle := h.le
  have hpos := gate.2.1
  constructor
  · intro hreached
    by_contra hnot
    obtain hreached | hmissing := hreached
    · have hget := List.getElem?_eq_getElem
        (show gate.1 - 1 < chain.certificates.length by omega)
      have hfree := h.free (gate.1 - 1) (by omega) _ hget
      rw [Nat.sub_add_cancel hpos] at hfree
      exact hreached.elim hfree.1 hfree.2
    · omega
  · intro hlt
    by_cases hmissing : chain.certificates.length < gate.1
    · exact .inr hmissing
    · have hget := List.getElem?_eq_getElem (show n < chain.certificates.length by omega)
      obtain htouched | ⟨i, other, hother, hi, hnot⟩ := h.stop _ hget
      · exact .inl (.inl (htouched.mono hlt))
      · exact .inl (.inr ⟨i, other, hother, by omega, hnot⟩)

theorem mem_missing {gate : GateId} (chain : CertificatePrefix contentDigest) :
    gate ∈ allGates.drop chain.certificates.length ↔ chain.certificates.length < gate.1 := by
  have hlength := chain.length_le
  obtain hfive | hlt : chain.certificates.length = 5 ∨ chain.certificates.length < 5 := by omega
  · have hbound := gate.2.2
    rw [hfive]
    exact ⟨fun h => absurd h List.not_mem_nil, fun h => absurd h (by omega)⟩
  · exact @mem_downstreamGates ⟨chain.certificates.length + 1, by omega⟩ gate

/-- A plan reuses the longest prefix that it may, and there is one unless the
resume keeps a certificate that does not hold. -/
theorem planCertificateReuse_spec
    (hkept : KeptByResume changes kept)
    (hhint : explicitResumePrefix chain.certificates changes
      (classifyCertificateInvalidation changes).invalidatedGates = chain.certificates.take kept) :
    ∃ n, LongestReusable admission gateFiveInputs chain changes n ∧
      ((∃ plan, planCertificateReuse admission chain.certificates changes gateFiveInputs =
        .ok plan) ↔ min kept chain.certificates.length ≤ n) ∧
      ∀ plan, planCertificateReuse admission chain.certificates changes gateFiveInputs = .ok plan →
        PlanExact admission gateFiveInputs chain changes plan := by
  obtain ⟨drift, hdrift, hmem⟩ := identityDriftClosure_from admission gateFiveInputs chain kept 0
    chain.certificates.zipIdx rfl (fun _ hi => absurd hi (Nat.not_lt_zero _))
  have hinvalid : ∀ gate : GateId,
      gate ∈ (classifyCertificateInvalidation changes).invalidatedGates ++ drift ↔
        Touched changes gate.1 ∨ Drifted admission gateFiveInputs chain kept gate.1 := by
    intro gate
    rw [List.mem_append, mem_invalidatedGates, hmem]
  obtain ⟨n, hn, htake, hbefore, hat⟩ := takeWhile_eq_take
    (fun item : GateCertificate contentDigest => decide (item.semanticEnvelope.gate ∉
      (classifyCertificateInvalidation changes).invalidatedGates ++ drift)) chain.certificates
  -- the scan stops at the first gate that is touched or has drifted
  have hstops : StopsAt admission gateFiveInputs chain changes kept n := by
    refine ⟨hn, fun i hi certificate hget => ?_, fun certificate hget => ?_⟩
    · have hnot := of_decide_eq_true (hbefore i hi certificate hget)
      rwa [hinvalid, chain.gate_eq hget, not_or] at hnot
    · have hin := not_not.mp (of_decide_eq_false (hat certificate hget))
      rwa [hinvalid, chain.gate_eq hget] at hin
  -- what the scan keeps is then checked as a chain of its own
  have hvalid := @validate_iff contentDigest admission gateFiveInputs chain kept n
    (if (chain.certificates.take kept).map GateCertificate.identity = [] then none
      else some ((chain.certificates.take kept).map GateCertificate.identity))
    (by split <;> simp_all)
  have hplan : ∀ plan, planCertificateReuse admission chain.certificates changes gateFiveInputs =
      .ok plan ↔ min kept chain.certificates.length ≤ n ∧
        plan = reusePlan (classifyCertificateInvalidation changes) (chain.certificates.take n)
          (allGates.find? fun gate => gate ∈ ((classifyCertificateInvalidation
            changes).invalidatedGates ++ drift) ++ allGates.drop chain.certificates.length) := by
    intro plan
    unfold planCertificateReuse
    simp only [bind_eq_ok, hhint, hdrift, Except.ok.injEq, exists_eq_left', htake, pure,
      Except.pure]
    constructor
    · rintro ⟨_, -, validated, hok, rfl⟩
      exact ⟨(hvalid.mp ⟨validated, hok⟩).1, rfl⟩
    · rintro ⟨hle, rfl⟩
      obtain ⟨validated, hok⟩ := hvalid.mpr ⟨hle, hstops.holds⟩
      exact ⟨(), refuseIf_ok.mpr (not_not.mpr chain.ordered), validated, hok, rfl⟩
  refine ⟨n, hstops.longest hkept, ?_, fun plan h => ?_⟩
  · constructor
    · rintro ⟨plan, h⟩
      exact ((hplan plan).mp h).1
    · intro hle
      exact ⟨_, (hplan _).mpr ⟨hle, rfl⟩⟩
  obtain ⟨-, rfl⟩ := (hplan plan).mp h
  have hfirst := @find_gate_after
    (fun gate => decide (gate ∈ ((classifyCertificateInvalidation changes).invalidatedGates ++
      drift) ++ allGates.drop chain.certificates.length)) n
    (fun gate => by rw [decide_eq_true_eq, List.mem_append, hinvalid, mem_missing, hstops.gate_iff])
    (hn.trans chain.length_le)
  refine ⟨⟨n, hstops.longest hkept, rfl⟩, ?_, ?_⟩
  · simpa [reusePlan, Nat.min_eq_left hn] using hfirst
  · rw [reusePlan]
    dsimp only
    split
    next hnone => rw [hnone]; rfl
    next gate hgate => rw [hgate]; rfl

/-- What a resume keeps holds where the lineage in front of it does. -/
theorem kept_le_iff (hkept : KeptByResume changes kept)
    (hlongest : LongestReusable admission gateFiveInputs chain changes n) :
    min kept chain.certificates.length ≤ n ↔ ResumeLineage admission chain changes := by
  constructor
  · intro hle gate hgate i certificate hget hlt
    obtain ⟨other, hother, rfl⟩ | ⟨hnone, -⟩ := hkept
    · obtain rfl := hgate.unique hother
      have hi := (List.getElem?_eq_some_iff.mp hget).1
      have hreusable := hlongest.2.1 i (by omega) certificate hget
      exact hreusable.2.elim IsCurrent.sameLineage And.right
    · exact absurd hgate (hnone gate)
  · intro hlineage
    by_contra hshort
    have hget := List.getElem?_eq_getElem (show n < chain.certificates.length by omega)
    obtain ⟨gate, hgate, rfl⟩ | ⟨-, rfl⟩ := hkept
    · have hlt : n + 1 < gate := by omega
      exact hlongest.2.2 _ hget ⟨hgate.2 _ hlt, .inr ⟨⟨gate, hgate, hlt⟩,
        hlineage gate hgate n _ hget hlt⟩⟩
    · omega

end stops

variable (admission gateFiveInputs chain)

/-- There is a plan where the lineage in front of an explicit resume holds, and
it reuses the longest prefix that it may. -/
theorem exists_plan (changes : List CertificateInputChange) :
    ∃ n, LongestReusable admission gateFiveInputs chain changes n ∧
      ((∃ plan, planCertificateReuse admission chain.certificates changes gateFiveInputs =
        .ok plan) ↔ ResumeLineage admission chain changes) ∧
      ∀ plan, planCertificateReuse admission chain.certificates changes gateFiveInputs = .ok plan →
        PlanExact admission gateFiveInputs chain changes plan := by
  obtain ⟨kept, hkept, hhint⟩ := explicitResumePrefix_eq chain.certificates changes
  obtain ⟨n, hlongest, hok, hexact⟩ := planCertificateReuse_spec hkept hhint
  exact ⟨n, hlongest, hok.trans (kept_le_iff hkept hlongest), hexact⟩

theorem PlanExact.length_eq {admission : CertificationAdmissionManifest contentDigest}
    {gateFiveInputs : Option GateFiveSemanticInputs} {chain : CertificatePrefix contentDigest}
    {changes : List CertificateInputChange} {plan : CertificateReusePlan} {n : Nat}
    (h : PlanExact admission gateFiveInputs chain changes plan)
    (hlongest : LongestReusable admission gateFiveInputs chain changes n) :
    plan.reusedCertificates.length = n := by
  obtain ⟨m, hm, hreused⟩ := h.reused
  rw [hreused, List.length_map, List.length_take, hm.unique hlongest, Nat.min_eq_left hlongest.1]

/-- Certificate reuse planning is exact where every certificate in front of an
explicit resume has its lineage; elsewhere there is no plan. -/
theorem planCertificateReuse_exact_iff (changes : List CertificateInputChange) :
    (∃ plan, planCertificateReuse admission chain.certificates changes gateFiveInputs = .ok plan ∧
      PlanExact admission gateFiveInputs chain changes plan ∧
      ∀ pre post change, changes = pre ++ post → change.changeClass ≠ .closeoutResume →
        ∃ plan', planCertificateReuse admission chain.certificates (pre ++ change :: post)
            gateFiveInputs = .ok plan' ∧
          plan'.reusedCertificates.length ≤ plan.reusedCertificates.length) ↔
      ResumeLineage admission chain changes := by
  obtain ⟨n, hlongest, hok, hexact⟩ := exists_plan admission gateFiveInputs chain changes
  rw [← hok]
  constructor
  · rintro ⟨plan, hplan, -⟩
    exact ⟨plan, hplan⟩
  · rintro ⟨plan, hplan⟩
    refine ⟨plan, hplan, hexact plan hplan, ?_⟩
    rintro pre post change rfl hchange
    obtain ⟨n', hlongest', hok', hexact'⟩ :=
      exists_plan admission gateFiveInputs chain (pre ++ change :: post)
    have hlineage := hok.mp ⟨plan, hplan⟩
    obtain ⟨plan', hplan'⟩ := hok'.mpr fun gate hgate => hlineage gate (hgate.of_more hchange)
    refine ⟨plan', hplan', ?_⟩
    rw [(hexact plan hplan).length_eq hlongest, (hexact' plan' hplan').length_eq hlongest']
    exact hlongest.of_more hchange hlongest'

end plan

/-! ## A resume over a foreign certificate -/

/-- The admission of another repository. -/
def otherRepository : CertificationAdmissionManifest sampleDigest :=
  { plain with
    semanticEnvelope := { plain.semanticEnvelope with repositoryId := "other" }
    digested := by simp [sampleDigest, plain, admissionOf, admittedGate] }

/-- The certificate of the first gate alone. -/
def firstOnly : CertificatePrefix sampleDigest := ⟨chain.take 1, by decide +kernel⟩

/-- A resume at the second gate. -/
def resumeAtTwo : CertificateInputChange where
  changeClass := .closeoutResume
  consumingGates := [gateTwo]
  reason := "resume at Gate 2"
  gatesOrdered := by simp
  fixedScope := by decide
  runtimeConsumes := by decide
  resumesOnce := by decide
  onlyCoherence := by simp
  subrecordsOrdered := by simp

/-- A resume at Gate 2 over a first certificate of another repository fails,
where the plan without the resume would run every gate. -/
theorem resume_over_foreign_certificate :
    (¬∃ plan, planCertificateReuse otherRepository firstOnly.certificates [resumeAtTwo] none =
      .ok plan) ∧
    (planCertificateReuse otherRepository firstOnly.certificates [] none).toOption.map
      (fun plan => (plan.reusedCertificates, plan.firstGateToRun.map Subtype.val)) =
        some ([], some 1) := by
  have hfails : (planCertificateReuse otherRepository firstOnly.certificates [resumeAtTwo]
      none).toOption = none := by
    decide +kernel
  refine ⟨?_, by decide +kernel⟩
  rintro ⟨plan, hplan⟩
  rw [hplan] at hfails
  cases hfails

end AgentsRemember.Certification
