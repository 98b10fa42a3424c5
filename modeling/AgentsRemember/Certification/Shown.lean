import AgentsRemember.Certification.Proving
import AgentsRemember.Certification.Readiness

/-!
# Certification — Shown

What a readiness projection may show. A gate that has been started stands on an
admission of the very plan and on the gates before it, all passed and current;
so the current certificates are a prefix, and the chain check sees all of them.
-/

namespace AgentsRemember.Certification

open Checks Attempts

variable {contentDigest : Content → String}

/-- Passed, with a current-green certificate. -/
def GateReadinessObservation.Green (observation : GateReadinessObservation contentDigest) : Prop :=
  observation.state = .passed ∧ observation.certificateState = .currentGreen

instance : DecidablePred (@GateReadinessObservation.Green contentDigest) :=
  fun _ => inferInstanceAs (Decidable (_ ∧ _))

/-- What the projection shows of a gate is what was observed of it. -/
def ShowsGate (observation : GateReadinessObservation contentDigest)
    (gate : GateReadinessProjection) : Prop :=
  gate.gate = observation.gate ∧ gate.state = observation.state ∧
    gate.certificateState = observation.certificateState ∧
    gate.certificateDigest = observation.certificate.map GateCertificate.certificateDigest

/-- The current-green certificates are those of the first gates, and they
validate against the admission. -/
def CurrentPrefix (source : CloseoutReadinessInput contentDigest) : Prop :=
  ∃ front back, source.gates = front ++ back ∧
    (∀ observation ∈ front, observation.Green) ∧
    (∀ observation ∈ back, observation.certificateState ≠ .currentGreen) ∧
    front.map GateReadinessObservation.certificate = (currentCertificates source).map some ∧
    (front ≠ [] → ∃ admission gateFiveInputs, source.admission = some admission ∧
      currentFiveInputs source = .ok gateFiveInputs ∧
      validateCertificateChain admission (currentCertificates source) gateFiveInputs none =
        .ok (currentCertificates source))

/-- A projection that is past no unproven gate, where the lifecycle states of
`guarded` wait for the certification. -/
structure NeverPastUnproven (guarded : List LifecycleReadinessState)
    (source : CloseoutReadinessInput contentDigest) (projection : CloseoutReadinessProjection) :
    Prop where
  shown : projection.gates.length = source.gates.length ∧
    ∀ (i : Nat) observation, source.gates[i]? = some observation →
      ∃ gate, projection.gates[i]? = some gate ∧ ShowsGate observation gate
  started : ∀ (i : Nat) observation, source.gates[i]? = some observation → observation.state.Started →
    (∃ admission, source.admission = some admission ∧
      BindsPlan admission source.repositoryId source.certificationPlan) ∧
    ∀ earlier ∈ source.gates.take i, earlier.Green
  current : CurrentPrefix source
  ready : projection.certificationReady = true ↔
    projection.profile.state = .admittedCurrent ∧ ∀ observation ∈ source.gates, observation.Green
  finalization : projection.lifecycle.state ∈ guarded → projection.certificationReady = true
  finalized : projection.lifecycle.state = .finalized →
    ∃ authority admission currentInputs, source.finalizationAuthority = some authority ∧
      source.admission = some admission ∧ source.finalizationInputs = some currentInputs ∧
      (currentCertificates source).length = 5 ∧
      compileFinalizationAuthority admission (currentCertificates source) currentInputs
        authority.provenance none = .ok authority

/-- Where each entry that counts stands behind good ones only, the entries that
count are in front. -/
theorem exists_front {α : Type} {good counts : α → Prop} {xs : List α}
    (h : ∀ (i : Nat) x, xs[i]? = some x → counts x → good x ∧ ∀ y ∈ xs.take i, good y) :
    ∃ front back, xs = front ++ back ∧ (∀ x ∈ front, good x) ∧ ∀ x ∈ back, ¬counts x := by
  induction xs with
  | nil => exact ⟨[], [], rfl, by simp, by simp⟩
  | cons x xs ih =>
    by_cases hx : good x
    · obtain ⟨front, back, hsplit, hfront, hback⟩ := ih fun i y hi hy => by
        obtain ⟨hgood, hearlier⟩ := h (i + 1) y (by simpa using hi) hy
        exact ⟨hgood, fun z hz => hearlier z (by simp [hz])⟩
      refine ⟨x :: front, back, by rw [hsplit, List.cons_append], ?_, hback⟩
      intro y hy
      obtain rfl | hy := List.mem_cons.mp hy
      · exact hx
      · exact hfront y hy
    · refine ⟨[], x :: xs, rfl, by simp, fun y hy hcounts => hx ?_⟩
      obtain ⟨i, hi⟩ := List.mem_iff_getElem?.mp hy
      obtain ⟨hgood, hearlier⟩ := h i y hi hcounts
      cases i with
      | zero =>
        rw [List.getElem?_cons_zero, Option.some.injEq] at hi
        exact hi ▸ hgood
      | succ i => exact hearlier x (by simp)

/-! ## One gate -/

theorem requireGateCertificate_green {gatePlan : GatePlan}
    {observation : GateReadinessObservation contentDigest}
    (h : requireGateCertificate gatePlan observation = .ok ())
    (hcurrent : observation.certificateState = .currentGreen) :
    observation.Green ∧ ∃ certificate, observation.certificate = some certificate := by
  unfold requireGateCertificate at h
  rw [if_pos hcurrent] at h
  split at h
  next hstate _ hcertificate => exact ⟨⟨hstate, hcurrent⟩, _, hcertificate⟩
  · cases h

/-- What one compiled gate says of its observation. -/
theorem compileGate_spec {plan : CertificationPlan} {gatePlan : GatePlan}
    {observation : GateReadinessObservation contentDigest} {gate : GateReadinessProjection}
    (h : compileGate plan gatePlan observation = .ok gate) :
    ShowsGate observation gate ∧ (observation.certificateState = .currentGreen →
      observation.Green ∧ ∃ certificate, observation.certificate = some certificate) := by
  simp only [compileGate, bind_eq_ok] at h
  obtain ⟨_, hgate, _, -, _, -, _, hcertificate, hprojection⟩ := h
  cases hprojection
  exact ⟨⟨(not_not.mp (refuseIf_ok.mp hgate)).symm, rfl, rfl, rfl⟩,
    requireGateCertificate_green hcertificate⟩

theorem length_of_certifying {plan : CertificationPlan} (h : requireCertifyingPlan plan = .ok ()) :
    plan.gates.length = 5 := by
  have hcatalog := (not_or.mp (refuseIf_ok.mp h)).2
  have hlength := congrArg List.length (not_not.mp hcatalog)
  rwa [List.length_map] at hlength

/-! ## The gates -/

section compiled
variable {source : CloseoutReadinessInput contentDigest} {gates : List GateReadinessProjection}

theorem compileGates_spec (hplan : source.certificationPlan.gates.length = 5)
    (h : compileGates source = .ok gates) :
    gates.length = source.gates.length ∧ ∀ (i : Nat) observation, source.gates[i]? = some observation →
      ∃ gate, gates[i]? = some gate ∧ ShowsGate observation gate ∧
        (observation.certificateState = .currentGreen →
          observation.Green ∧ ∃ certificate, observation.certificate = some certificate) := by
  have hfive := source.five
  refine ⟨by rw [length_mapM h, List.length_zip]; omega, fun i observation hi => ?_⟩
  have hlt : i < source.certificationPlan.gates.length := by
    have hbound := (List.getElem?_eq_some_iff.mp hi).1
    omega
  obtain ⟨gatePlan, hgatePlan⟩ : ∃ gatePlan, source.certificationPlan.gates[i]? = some gatePlan :=
    ⟨_, List.getElem?_eq_getElem hlt⟩
  have hzip : (source.certificationPlan.gates.zip source.gates)[i]? =
      some (gatePlan, observation) := by
    rw [List.getElem?_zip_eq_some]
    exact ⟨hgatePlan, hi⟩
  obtain ⟨gate, hgate, hcompiled⟩ := getElem?_mapM h hzip
  exact ⟨gate, hgate, compileGate_spec hcompiled⟩

theorem requireGateBarriers_started (h : requireGateBarriers gates = .ok ()) {i : Nat}
    {gate : GateReadinessProjection} (hi : gates[i]? = some gate) (hstarted : gate.state.Started) :
    ∀ earlier ∈ gates.take i, Proven earlier := by
  have hbarrier : requireGateBarrier (gates.take i) gate = .ok () :=
    forM_eq_ok.mp h (gate, i) (List.mem_zipIdx_iff_getElem?.mpr hi)
  unfold requireGateBarrier at hbarrier
  simp only [inOrder_cons_ok, refuseIf_ok] at hbarrier
  obtain ⟨-, hprerequisite, -⟩ := hbarrier
  intro earlier hearlier
  by_contra hnot
  exact hprerequisite ⟨hstarted, earlier, hearlier, hnot⟩

/-- In front of a gate that has been started there are green ones only. -/
theorem green_of_started (hplan : source.certificationPlan.gates.length = 5)
    (hgates : compileGates source = .ok gates) (hbarriers : requireGateBarriers gates = .ok ())
    {i : Nat} {observation : GateReadinessObservation contentDigest}
    (hi : source.gates[i]? = some observation) (hstarted : observation.state.Started) :
    ∀ earlier ∈ source.gates.take i, earlier.Green := by
  obtain ⟨-, hshown⟩ := compileGates_spec hplan hgates
  obtain ⟨gate, hgate, ⟨-, hstate, -⟩, -⟩ := hshown i observation hi
  have hproven := requireGateBarriers_started hbarriers hgate (hstate ▸ hstarted)
  intro earlier hearlier
  obtain ⟨j, hj⟩ := List.mem_iff_getElem?.mp hearlier
  rw [List.getElem?_take] at hj
  split at hj
  next hlt =>
    obtain ⟨gate', hgate', ⟨-, hstate', hcertificate', -⟩, -⟩ := hshown j earlier hj
    have hmem : gate' ∈ gates.take i := by
      refine List.mem_iff_getElem?.mpr ⟨j, ?_⟩
      rw [List.getElem?_take, if_pos hlt, hgate']
    obtain ⟨hpassed, hcurrent⟩ := hproven gate' hmem
    exact ⟨hstate' ▸ hpassed, hcertificate' ▸ hcurrent⟩
  · cases hj

/-- The current-green observations are the first ones. -/
theorem current_front (hplan : source.certificationPlan.gates.length = 5)
    (hgates : compileGates source = .ok gates) (hbarriers : requireGateBarriers gates = .ok ()) :
    ∃ front back, source.gates = front ++ back ∧
      (∀ observation ∈ front, observation.Green) ∧
      ∀ observation ∈ back, observation.certificateState ≠ .currentGreen := by
  refine exists_front fun i observation hi hcurrent => ?_
  obtain ⟨-, hshown⟩ := compileGates_spec hplan hgates
  obtain ⟨_, -, -, hgreen⟩ := hshown i observation hi
  have hpassed : observation.Green := (hgreen hcurrent).1
  have hstarted : observation.state.Started := by
    rw [hpassed.1]
    trivial
  exact ⟨hpassed, green_of_started hplan hgates hbarriers hi hstarted⟩

/-- Every green gate has a certificate. -/
theorem certificate_of_green (hplan : source.certificationPlan.gates.length = 5)
    (hgates : compileGates source = .ok gates)
    {observation : GateReadinessObservation contentDigest} (hmem : observation ∈ source.gates)
    (hcurrent : observation.certificateState = .currentGreen) :
    ∃ certificate, observation.certificate = some certificate := by
  obtain ⟨i, hi⟩ := List.mem_iff_getElem?.mp hmem
  obtain ⟨-, hshown⟩ := compileGates_spec hplan hgates
  obtain ⟨_, -, -, hgreen⟩ := hshown i observation hi
  exact (hgreen hcurrent).2

/-- The certificates that are checked are those of the green gates. -/
theorem currentCertificates_of_front (hplan : source.certificationPlan.gates.length = 5)
    (hgates : compileGates source = .ok gates)
    {front back : List (GateReadinessObservation contentDigest)}
    (hsplit : source.gates = front ++ back) (hfront : ∀ observation ∈ front, observation.Green)
    (hback : ∀ observation ∈ back, observation.certificateState ≠ .currentGreen) :
    front.map GateReadinessObservation.certificate = (currentCertificates source).map some := by
  have hfilter : (source.gates.filter fun item => item.certificateState = .currentGreen) = front := by
    rw [hsplit, List.filter_append, List.filter_eq_self.mpr, List.filter_eq_nil_iff.mpr,
      List.append_nil]
    · intro observation hmem
      simpa using hback observation hmem
    · intro observation hmem
      simpa using (hfront observation hmem).2
  have hbytes : ∀ observation ∈ front, ∃ certificate, observation.certificate = some certificate :=
    fun observation hmem => certificate_of_green hplan hgates
      (hsplit ▸ List.mem_append_left back hmem) (hfront observation hmem).2
  unfold currentCertificates
  rw [hfilter]
  clear hfilter hfront hsplit
  induction front with
  | nil => rfl
  | cons observation front ih =>
    obtain ⟨certificate, hcertificate⟩ := hbytes observation (by simp)
    rw [List.filterMap_cons_some hcertificate, List.map_cons, List.map_cons, hcertificate,
      ih fun other hmem => hbytes other (by simp [hmem])]

/-- The chain check passes with the admission at hand. -/
theorem requireCurrentCertificateChain_valid (h : requireCurrentCertificateChain source = .ok ())
    (hsome : currentCertificates source ≠ []) :
    ∃ admission gateFiveInputs, source.admission = some admission ∧
      currentFiveInputs source = .ok gateFiveInputs ∧
      validateCertificateChain admission (currentCertificates source) gateFiveInputs none =
        .ok (currentCertificates source) := by
  unfold requireCurrentCertificateChain at h
  rw [if_neg hsome] at h
  obtain ⟨gateFiveInputs, hinputs, hvalid⟩ := bind_eq_ok.mp h
  unfold requireValidChain at hvalid
  split at hvalid
  · cases hvalid
  next admission hadmission =>
    split at hvalid
    · cases hvalid
    next validated hvalidated =>
      have hsame := validateCertificateChain_eq hvalidated
      exact ⟨admission, gateFiveInputs, hadmission, hinputs, hsame ▸ hvalidated⟩

end compiled

/-! ## The whole -/

section whole
variable {source : CloseoutReadinessInput contentDigest}

/-- Past the admission check a started gate has the admission of the plan. -/
theorem requireAdmission_started (h : requireAdmission source = .ok ())
    {observation : GateReadinessObservation contentDigest} (hmem : observation ∈ source.gates)
    (hstarted : observation.state.Started) :
    ∃ admission, source.admission = some admission ∧
      BindsPlan admission source.repositoryId source.certificationPlan := by
  unfold requireAdmission at h
  cases hadmission : source.admission with
  | none =>
    simp only [hadmission, inOrder_cons_ok, refuseIf_ok] at h
    exact absurd ⟨observation, hmem, hstarted⟩ h.2.1
  | some admission =>
    simp only [hadmission, inOrder_cons_ok, refuseIf_ok, not_not] at h
    exact ⟨admission, rfl, h.1⟩

theorem compileProfile_spec {profile : ProfileReadinessProjection}
    (h : compileProfile source = .ok profile) :
    profile.state = source.profile.state ∧
      (profile.state = .admittedCurrent → source.admission.isSome) := by
  simp only [compileProfile, bind_eq_ok] at h
  obtain ⟨_, hshape, current, -, _, -, hprojection⟩ := h
  cases hprojection
  refine ⟨rfl, fun hcurrent => ?_⟩
  have hstate : source.profile.state = .admittedCurrent := hcurrent
  rw [requireProfileShape, hstate, if_neg (by decide), refuseIf_ok, not_or] at hshape
  simpa [Option.isSome_iff_ne_none] using hshape.1

theorem requireFinalized_spec (h : requireFinalized source = .ok ()) :
    ∃ authority admission currentInputs, source.finalizationAuthority = some authority ∧
      source.admission = some admission ∧ source.finalizationInputs = some currentInputs ∧
      compileFinalizationAuthority admission
        (source.gates.filterMap GateReadinessObservation.certificate) currentInputs
        authority.provenance none = .ok authority := by
  unfold requireFinalized at h
  split at h
  next authority currentInputs admission hauthority hinputs hadmission =>
    split at h
    · cases h
    next validated hvalidated =>
      exact ⟨authority, admission, currentInputs, hauthority, hadmission, hinputs,
        validateFinalizationCurrentness_ok_iff.mp ⟨validated, hvalidated⟩⟩
  · cases h
  · cases h

theorem certificationReady_iff {gates : List GateReadinessProjection}
    {profile : ProfileReadinessProjection} (hplan : source.certificationPlan.gates.length = 5)
    (hprofile : compileProfile source = .ok profile) (hgates : compileGates source = .ok gates) :
    certificationReady source gates profile = true ↔
      profile.state = .admittedCurrent ∧ ∀ observation ∈ source.gates, observation.Green := by
  obtain ⟨hlength, hshown⟩ := compileGates_spec hplan hgates
  rw [certificationReady, Bool.and_eq_true, Bool.and_eq_true, decide_eq_true_eq, List.all_eq_true]
  simp only [decide_eq_true_eq]
  constructor
  · rintro ⟨⟨-, hcurrent⟩, hproven⟩
    refine ⟨hcurrent, fun observation hmem => ?_⟩
    obtain ⟨i, hi⟩ := List.mem_iff_getElem?.mp hmem
    obtain ⟨gate, hgate, ⟨-, hstate, hcertificate, -⟩, -⟩ := hshown i observation hi
    obtain ⟨hpassed, hgreen⟩ := hproven gate (List.mem_of_getElem? hgate)
    exact ⟨hstate ▸ hpassed, hcertificate ▸ hgreen⟩
  · intro ⟨hcurrent, hall⟩
    refine ⟨⟨(compileProfile_spec hprofile).2 hcurrent, hcurrent⟩, fun gate hmem => ?_⟩
    obtain ⟨i, hi⟩ := List.mem_iff_getElem?.mp hmem
    have hlt : i < source.gates.length := hlength ▸ (List.getElem?_eq_some_iff.mp hi).1
    obtain ⟨gate', hgate', ⟨-, hstate, hcertificate, -⟩, -⟩ :=
      hshown i _ (List.getElem?_eq_getElem hlt)
    obtain rfl : gate = gate' := Option.some.inj (hi.symm.trans hgate')
    obtain ⟨hpassed, hgreen⟩ := hall _ (List.getElem_mem hlt)
    exact ⟨hstate.trans hpassed, hcertificate.trans hgreen⟩

/-- A compiled projection is past no unproven gate; a refused finalization is
not held back. -/
theorem closeout_readiness_proven (payloadDigest : CloseoutReadinessPayload → String)
    (source : CloseoutReadinessInput contentDigest) (projection : CloseoutReadinessProjection)
    (h : compileCloseoutReadiness payloadDigest source = .ok projection) :
    NeverPastUnproven [.finalizationPending, .finalizationRunning, .finalized] source
      projection := by
  simp only [compileCloseoutReadiness, bind_eq_ok] at h
  obtain ⟨_, hcertifying, _, -, _, hadmission, profile, hprofile, gates, hgates, _, hchain, _,
    hbarriers, diagnostics, -, _, hlifecycle, hprojection⟩ := h
  cases hprojection
  obtain ⟨_, hproceeds, hends⟩ := bind_eq_ok.mp hlifecycle
  have hplan := length_of_certifying hcertifying
  have hready := certificationReady_iff hplan hprofile hgates
  obtain ⟨hlength, hshown⟩ := compileGates_spec hplan hgates
  obtain ⟨front, back, hsplit, hfront, hback⟩ := current_front hplan hgates hbarriers
  have hcertificates := currentCertificates_of_front hplan hgates hsplit hfront hback
  refine ⟨⟨hlength, fun i observation hi => ?_⟩, fun i observation hi hstarted => ⟨?_, ?_⟩,
    ⟨front, back, hsplit, hfront, hback, hcertificates, fun hne => ?_⟩, hready, ?_, ?_⟩
  · obtain ⟨gate, hgate, hshows, -⟩ := hshown i observation hi
    exact ⟨gate, hgate, hshows⟩
  · exact requireAdmission_started hadmission (List.mem_of_getElem? hi) hstarted
  · exact green_of_started hplan hgates hbarriers hi hstarted
  · refine requireCurrentCertificateChain_valid hchain fun hnil => hne ?_
    rw [hnil] at hcertificates
    exact List.map_eq_nil_iff.mp hcertificates
  · intro hguarded
    by_contra hnot
    exact (refuseIf_ok.mp hproceeds) ⟨hguarded, Bool.eq_false_iff.mpr hnot⟩
  · intro hfinalized
    have hlife : source.lifecycle.state = .finalized := hfinalized
    rw [if_pos hlife] at hends
    have hgreen : ∀ observation ∈ source.gates, observation.Green := by
      refine (hready.mp ?_).2
      by_contra hnot
      exact (refuseIf_ok.mp hproceeds) ⟨by rw [hlife]; decide, Bool.eq_false_iff.mpr hnot⟩
    -- With all gates green, every certificate is a current one.
    have hall : source.gates.filterMap GateReadinessObservation.certificate =
        currentCertificates source := by
      rw [currentCertificates, List.filter_eq_self.mpr]
      intro observation hmem
      simpa using (hgreen observation hmem).2
    obtain ⟨authority, admission, currentInputs, hauthority, hadmitted, hinputs, hcompiled⟩ :=
      requireFinalized_spec hends
    rw [hall] at hcompiled
    refine ⟨authority, admission, currentInputs, hauthority, hadmitted, hinputs, ?_, hcompiled⟩
    simp only [compileFinalizationAuthority, bind_eq_ok] at hcompiled
    obtain ⟨chain, hvalid, _, hlengthFive, -⟩ := hcompiled
    rw [← validateCertificateChain_eq hvalid]
    exact not_not.mp (refuseIf_ok.mp hlengthFive)

end whole

/-! ## Refusals only -/

/-- A computation that never ends in an exception of the interpreter. -/
def NeverRaises {α : Type} (x : Except ReadinessRefusal α) : Prop :=
  ∀ what, x ≠ .error (.raised what)

theorem NeverRaises.bind {α β : Type} {x : Except ReadinessRefusal α}
    {f : α → Except ReadinessRefusal β} (hx : NeverRaises x)
    (hf : ∀ a, x = .ok a → NeverRaises (f a)) : NeverRaises (x >>= f) := by
  intro what h
  obtain herror | ⟨a, ha, herror⟩ := bind_eq_error.mp h
  · exact hx what herror
  · exact hf a ha what herror

theorem neverRaises_ok {α : Type} (a : α) : NeverRaises (.ok a) := fun _ h => by cases h

theorem neverRaises_refuseIf (c : Prop) [Decidable c] (code path findingDetail : String) :
    NeverRaises (refuseIf c (readinessRefused code path findingDetail)) := by
  intro what h
  unfold refuseIf at h
  split at h <;> cases h

theorem neverRaises_inOrder {checks : List (Except ReadinessRefusal Unit)}
    (h : ∀ check ∈ checks, NeverRaises check) : NeverRaises (inOrder checks) := by
  induction checks with
  | nil => exact neverRaises_ok ()
  | cons check checks ih =>
    have hcheck := h check (by simp)
    cases check with
    | error refusal => exact hcheck
    | ok _ => exact ih fun other hmem => h other (by simp [hmem])

theorem neverRaises_forM {α : Type} {f : α → Except ReadinessRefusal Unit} {xs : List α}
    (h : ∀ x ∈ xs, NeverRaises (f x)) : NeverRaises (xs.forM f) := by
  intro what herror
  obtain ⟨x, hx, hraised⟩ := forM_eq_error herror
  exact h x hx what hraised

theorem neverRaises_mapM {α β : Type} {f : α → Except ReadinessRefusal β} {xs : List α}
    (h : ∀ x ∈ xs, NeverRaises (f x)) : NeverRaises (xs.mapM f) := by
  induction xs with
  | nil => exact neverRaises_ok []
  | cons x xs ih =>
    rw [List.mapM_cons]
    refine (h x (by simp)).bind fun y _ => ?_
    refine (ih fun other hmem => h other (by simp [hmem])).bind fun ys _ => ?_
    exact neverRaises_ok (y :: ys)

/-- A manifest with the catalog of its plan has a result for each planned rail. -/
theorem neverRaises_requireManifest (plan : CertificationPlan) (gatePlan : GatePlan)
    (manifest : GateResultManifest) : NeverRaises (requireManifest plan gatePlan manifest) := by
  refine (neverRaises_refuseIf _ _ _ _).bind fun _ _ => ?_
  refine (neverRaises_refuseIf _ _ _ _).bind fun _ hcatalog => ?_
  refine neverRaises_forM fun item hmem => ?_
  have hkey : item.1 ∈ (observedResults manifest).map Prod.fst := by
    rw [not_not.mp (refuseIf_ok.mp hcatalog)]
    exact List.mem_map_of_mem hmem
  obtain ⟨result, hresult⟩ := Option.isSome_iff_exists.mp (Keyed.lookup_isSome_iff.mpr hkey)
  rw [requirePlannedResult, hresult]
  refine neverRaises_inOrder fun check hcheck => ?_
  simp only [List.mem_cons, List.not_mem_nil, or_false] at hcheck
  obtain rfl | rfl := hcheck <;> exact neverRaises_refuseIf _ _ _ _

theorem neverRaises_compileGate (plan : CertificationPlan) (gatePlan : GatePlan)
    (observation : GateReadinessObservation contentDigest) :
    NeverRaises (compileGate plan gatePlan observation) := by
  refine (neverRaises_refuseIf _ _ _ _).bind fun _ _ => ?_
  refine (neverRaises_refuseIf _ _ _ _).bind fun _ _ => ?_
  refine NeverRaises.bind ?_ fun _ _ => NeverRaises.bind ?_ fun _ _ => neverRaises_ok _
  · cases observation.resultManifest with
    | none => exact neverRaises_ok ()
    | some manifest =>
      exact (neverRaises_requireManifest _ _ _).bind fun _ _ => neverRaises_refuseIf _ _ _ _
  · intro what h
    unfold requireGateCertificate at h
    split at h
    · split at h
      · exact neverRaises_refuseIf _ _ _ _ what h
      · cases h
    · cases h

section raises
variable {source : CloseoutReadinessInput contentDigest}

/-- A profile with a repository plan has an admission, by its shape. -/
theorem neverRaises_compileProfile (source : CloseoutReadinessInput contentDigest) :
    NeverRaises (compileProfile source) := by
  refine NeverRaises.bind ?_ fun _ hshape => NeverRaises.bind ?_ fun _ _ =>
    (neverRaises_refuseIf _ _ _ _).bind fun _ _ => neverRaises_ok _
  · unfold requireProfileShape
    split <;> exact neverRaises_refuseIf _ _ _ _
  · unfold profileIsCurrent
    cases hplan : source.profile.repositoryPlan with
    | none => exact neverRaises_ok false
    | some repositoryPlan =>
      refine (neverRaises_refuseIf _ _ _ _).bind fun _ _ => ?_
      unfold requireProfileShape at hshape
      rw [hplan] at hshape
      unfold repositoryPlanIsAdmitted
      cases hadmission : source.admission with
      | some admission => exact neverRaises_ok _
      | none =>
        rw [hadmission] at hshape
        split at hshape
        · exact absurd rfl (refuseIf_ok.mp hshape)
        · exact absurd (.inl rfl) (refuseIf_ok.mp hshape)

/-- Where there are current certificates there is an admission. -/
theorem neverRaises_chain {gates : List GateReadinessProjection}
    (hplan : source.certificationPlan.gates.length = 5) (hadmission : requireAdmission source = .ok ())
    (hgates : compileGates source = .ok gates) :
    NeverRaises (requireCurrentCertificateChain source) := by
  unfold requireCurrentCertificateChain
  split
  · exact neverRaises_ok ()
  next hsome =>
    refine NeverRaises.bind ?_ fun gateFiveInputs _ => ?_
    · intro what h
      unfold currentFiveInputs at h
      split at h
      · cases h
      · split at h <;> cases h
    · obtain ⟨certificate, hcertificate⟩ := List.exists_mem_of_ne_nil _ hsome
      obtain ⟨observation, hmem, -⟩ := List.mem_filterMap.mp hcertificate
      rw [List.mem_filter, decide_eq_true_eq] at hmem
      obtain ⟨i, hi⟩ := List.mem_iff_getElem?.mp hmem.1
      obtain ⟨_, -, -, hgreen⟩ := (compileGates_spec hplan hgates).2 i observation hi
      have hstarted : observation.state.Started := by
        rw [(hgreen hmem.2).1.1]
        trivial
      obtain ⟨admission, hadmitted, -⟩ := requireAdmission_started hadmission hmem.1 hstarted
      intro what h
      unfold requireValidChain at h
      rw [hadmitted] at h
      dsimp only at h
      split at h <;> cases h

/-- There is a certifying plan for the gate of each diagnostic result. -/
theorem neverRaises_compileDiagnostics (hplan : source.certificationPlan.gates.length = 5) :
    NeverRaises (compileDiagnostics source) := by
  refine (neverRaises_mapM fun observation _ => ?_).bind fun _ _ =>
    (neverRaises_refuseIf _ _ _ _).bind fun _ _ => neverRaises_ok _
  refine (neverRaises_refuseIf _ _ _ _).bind fun _ _ => ?_
  refine (neverRaises_refuseIf _ _ _ _).bind fun _ _ => ?_
  intro what h
  have hlt : observation.resultManifest.gate.1 - 1 < source.certificationPlan.gates.length := by
    have hgate := observation.resultManifest.gate.2
    omega
  rw [List.getElem?_eq_getElem hlt] at h
  unfold compileDiagnosticGate at h
  split at h
  · cases h
  · refine NeverRaises.bind (neverRaises_requireManifest _ _ _) (fun _ _ => ?_) what h
    exact (neverRaises_refuseIf _ _ _ _).bind fun _ _ => neverRaises_ok _

theorem neverRaises_requireLifecycle (hadmission : requireAdmission source = .ok ()) (ready : Bool) :
    NeverRaises (requireLifecycle source ready) := by
  refine (neverRaises_refuseIf _ _ _ _).bind fun _ _ => ?_
  split
  next hfinalized =>
    intro what h
    unfold requireFinalized at h
    split at h
    · split at h <;> cases h
    next hnone =>
      unfold requireAdmission at hadmission
      simp only [hnone, inOrder_cons_ok, refuseIf_ok, hfinalized] at hadmission
      exact absurd (by decide) hadmission.1
    · cases h
  · exact neverRaises_refuseIf _ _ _ _

/-- No assertion of the compilation is ever reached. -/
theorem closeout_readiness_never_raises (payloadDigest : CloseoutReadinessPayload → String)
    (source : CloseoutReadinessInput contentDigest) :
    NeverRaises (compileCloseoutReadiness payloadDigest source) := by
  refine (neverRaises_refuseIf _ _ _ _).bind fun _ hcertifying => ?_
  have hplan := length_of_certifying hcertifying
  refine (neverRaises_refuseIf _ _ _ _).bind fun _ _ => ?_
  refine NeverRaises.bind ?_ fun _ hadmission => ?_
  · unfold requireAdmission
    split <;> refine neverRaises_inOrder fun check hcheck => ?_ <;>
      simp only [List.mem_cons, List.not_mem_nil, or_false] at hcheck <;>
      obtain rfl | rfl := hcheck <;> exact neverRaises_refuseIf _ _ _ _
  refine (neverRaises_compileProfile source).bind fun profile _ => ?_
  refine (neverRaises_mapM fun _ _ => neverRaises_compileGate _ _ _).bind fun gates hgates => ?_
  refine (neverRaises_chain hplan hadmission hgates).bind fun _ _ => ?_
  refine NeverRaises.bind ?_ fun _ _ => ?_
  · refine neverRaises_forM fun item _ => neverRaises_inOrder fun check hcheck => ?_
    simp only [List.mem_cons, List.not_mem_nil, or_false] at hcheck
    obtain rfl | rfl := hcheck <;> exact neverRaises_refuseIf _ _ _ _
  refine (neverRaises_compileDiagnostics hplan).bind fun diagnostics _ => ?_
  exact (neverRaises_requireLifecycle hadmission _).bind fun _ _ => neverRaises_ok _

end raises

/-! ## Two closeouts -/

/-- The plan of the five gates. -/
def certifyingPlan : CertificationPlan where
  registryDigest := hex 192
  candidateIdentity := codeTree.1
  profileId := "targeted"
  profileKind := .certifying
  gates := gates.map plan
  planDigest := hex 193

/-- A revision. -/
def revision : ReadinessRevision := ⟨"generation", 0⟩

/-- A profile that is admitted and current. -/
def admittedProfile : ProfileReadinessObservation where
  revision := revision
  state := .admittedCurrent
  repositoryPlan := some ⟨hex 196, codeTree.1, "targeted", List.replicate 4 ⟨hex 195⟩, hex 197⟩

/-- The gate of a certificate of the chain. -/
def greenGate (certificate : GateCertificate sampleDigest) : GateReadinessObservation sampleDigest where
  revision := revision
  gate := certificate.semanticEnvelope.gate
  state := .passed
  resultManifest := some (result certificate.semanticEnvelope.gate)
  certificateState := .currentGreen
  certificate := some certificate
  blocked := by decide
  ended := by simp
  bytes := .inl (by simp)

/-- A gate that has not started. -/
def idleGate (gate : GateId) : GateReadinessObservation sampleDigest where
  revision := revision
  gate := gate
  state := .notStarted
  blocked := by decide
  ended := by decide
  bytes := .inl (by simp)

/-- The inputs of a finalization. -/
def finalInputs : FinalizationCurrentInputs := ⟨memory, hex 184, hex 185⟩

/-- Five green gates, and the authority over them. -/
def finalizedSource : CloseoutReadinessInput sampleDigest where
  revision := revision
  repositoryId := "fixture"
  certificationPlan := certifyingPlan
  profile := admittedProfile
  lifecycle := { revision := revision, state := .finalized, refusal := by decide }
  gates := chain.map greenGate
  admission := some repeating
  gateFiveInputs := some memory
  finalizationAuthority :=
    (compileFinalizationAuthority repeating chain finalInputs provenance none).toOption
  finalizationInputs := some finalInputs
  five := by decide +kernel

/-- The projection of a finished closeout. -/
def finalizedProjection : CloseoutReadinessProjection :=
  (compileCloseoutReadiness (fun _ => hex 186) finalizedSource).toOption.get (by decide +kernel)

theorem finalized_readiness_proven :
    NeverPastUnproven [.finalizationPending, .finalizationRunning, .finalized] finalizedSource
      finalizedProjection :=
  closeout_readiness_proven (fun _ => hex 186) finalizedSource finalizedProjection
    (Checks.eq_ok_get _)

/-- A finalization was refused, and no gate has been started. -/
def refusedSource : CloseoutReadinessInput sampleDigest where
  revision := revision
  repositoryId := "fixture"
  certificationPlan := certifyingPlan
  profile := admittedProfile
  lifecycle := {
    revision := revision
    state := .finalizationRefused
    code := some "refused"
    correctiveOwner := some "owner"
    evidence := [⟨"refusal", hex 187, 1, "evidence://refusal"⟩]
    refusal := by decide }
  gates := gates.map idleGate
  admission := some repeating
  five := rfl

/-- The projection of a refused one. -/
def refusedProjection : CloseoutReadinessProjection :=
  (compileCloseoutReadiness (fun _ => hex 186) refusedSource).toOption.get (by decide +kernel)

/-- The refused state is a finalization state, and nothing is certified. -/
theorem refused_readiness_unproven :
    compileCloseoutReadiness (fun _ => hex 186) refusedSource = .ok refusedProjection ∧
      ¬NeverPastUnproven [.finalizationPending, .finalizationRunning, .finalizationRefused,
        .finalized] refusedSource refusedProjection := by
  have hcompiled : compileCloseoutReadiness (fun _ => hex 186) refusedSource =
      .ok refusedProjection := Checks.eq_ok_get _
  refine ⟨hcompiled, fun h => ?_⟩
  have hready : refusedProjection.certificationReady = true := h.finalization (by decide +kernel)
  exact absurd hready (by decide +kernel)

end AgentsRemember.Certification
