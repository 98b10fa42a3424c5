import AgentsRemember.Lifecycle.Store

/-!
# Lifecycle — Evidence

What a generation keeps under any run of writes, whatever the transforms are:
its identity and input, a claimed approval, an entered boundary, the evidence
of a proven leg, the attempts in its histories and the recorded commits.
-/

namespace AgentsRemember.Lifecycle

open Checks

/-! ## The envelope of a write -/

/-- What the shared validator lets through, in the cells the results below are about. -/
structure Envelope (current updated : LifecycleOperationRecord) : Prop where
  revision : updated.recordRevision = current.recordRevision + 1
  meaningful : updated.meaningfulRevision =
    current.meaningfulRevision + (meaningfulStateChanged current updated).toNat
  identity : updated.toGenerationIdentity = current.toGenerationIdentity
  approval : current.approvalClaimed = true → updated.approvalClaimed = true
  boundary : current.irreversibleBoundaryEntered = true →
    updated.irreversibleBoundaryEntered = true
  commits : validateRecoveryCommitsTransition current updated = .ok ()
  mutation : validateMutationEvidenceTransition current updated = .ok ()
  worker : validateWorkerTransition current updated = .ok ()

theorem identity_of_immutableCells {current updated : LifecycleOperationRecord}
    (hcells : inOrder ((immutableCells current updated).map fun cell =>
      refuseIf (cell.2 = true) ("lifecycle operation transition cannot change " ++ cell.1)) =
        .ok ())
    (hkey : updated.operationKey = current.operationKey) (hinput : updated.input = current.input) :
    updated.toGenerationIdentity = current.toGenerationIdentity := by
  simp only [immutableCells, List.map_cons, List.map_nil, inOrder_cons_ok, refuseIf_ok,
    decide_eq_true_eq, not_not, inOrder_nil_ok, and_true] at hcells
  obtain ⟨hid, hname, hpath, hkind, hgeneration, hpredecessor, hstate, htree, hintent,
    hfingerprint, hauthority, hreport⟩ := hcells
  ext1 <;> first | exact Eq.symm ‹_› | assumption

theorem envelope_ok {current updated : LifecycleOperationRecord}
    (h : validateIdentityAndEvidenceTransition current updated = .ok ()) :
    Envelope current updated := by
  simp only [validateIdentityAndEvidenceTransition, inOrder_cons_ok, inOrder_nil_ok, refuseIf_ok,
    not_not] at h
  obtain ⟨hrevision, hmeaningful, hcells, hinput, happroval, hcommits, -, -, -, -, -, -,
    hmutation, hworker, -, -, -, -, -, hboundary, -⟩ := h
  push Not at hinput
  refine ⟨hrevision, hmeaningful, identity_of_immutableCells hcells hinput.1 hinput.2, ?_, ?_,
    hcommits, hmutation, hworker⟩
  · intro hclaimed
    simpa [hclaimed] using happroval
  · intro hentered
    simpa [hentered] using hboundary

/-! ## One leg -/

/-- The replaced attempts of one leg. -/
def LifecycleOperationRecord.attempts (record : LifecycleOperationRecord)
    (leg : CloseoutMutationLeg) : List GitMutationEvidence :=
  (record.mutationHistory.get leg).getD []

/-- What one write does to the evidence of a leg. -/
structure LegStep (current updated : LifecycleOperationRecord) (leg : CloseoutMutationLeg)
    (before after : GitMutationEvidence) : Prop where
  retried : before.state = .reconciledUnchanged → after.state = .preMutation →
    updated.attempts leg = current.attempts leg ++ [before]
  proven : before.state = .commitProven → after.state = .commitProven ∧
    after.before = before.before ∧ after.observed = before.observed ∧
    after.expectedOutputTree = before.expectedOutputTree ∧ after.commit = before.commit

theorem attempts_of_retryReset {current updated : LifecycleOperationRecord}
    {leg : CloseoutMutationLeg} {before after : GitMutationEvidence}
    (h : retryReset current updated leg before after = true) :
    before.state = .reconciledUnchanged ∧ updated.attempts leg = current.attempts leg ++ [before] := by
  simp only [retryReset, Bool.and_eq_true, decide_eq_true_eq] at h
  obtain ⟨⟨hstate, -⟩, hhistory⟩ := h
  refine ⟨hstate, ?_⟩
  rw [LifecycleOperationRecord.attempts, hhistory]
  rfl

theorem legStep_of_transition {current updated : LifecycleOperationRecord}
    {leg : CloseoutMutationLeg} {before after : GitMutationEvidence}
    (h : validateLegEvidenceTransition current updated leg before after = .ok ()) :
    LegStep current updated leg before after := by
  simp only [validateLegEvidenceTransition, inOrder_cons_ok, inOrder_nil_ok, and_true,
    validateMutationEvidenceIdentity, refuseIf_ok] at h
  obtain ⟨⟨-, -, hbefore⟩, hrest⟩ := h
  split at hrest
  next hreset =>
    obtain ⟨hstate, hattempts⟩ := attempts_of_retryReset hreset
    exact ⟨fun _ _ => hattempts, fun hproven => by rw [hproven] at hstate; cases hstate⟩
  next hreset =>
    simp only [inOrder_cons_ok, refuseIf_ok, inOrder_nil_ok, and_true, not_not] at hrest
    obtain ⟨hallowed, hobserved, htree⟩ := hrest
    refine ⟨?_, ?_⟩
    · -- without the reset a reconciled attempt stays as it is
      intro hstate hafter
      rw [hstate, hafter] at hallowed
      simp [mutationAllowed] at hallowed
    · intro hstate
      obtain ⟨b, o, t, hb, ho, ht, hcommit⟩ := before.commit_eq hstate
      have hproven : after.state = .commitProven := by
        simpa [hstate, mutationAllowed] using hallowed
      have hsame : after.before = before.before ∧ after.observed = before.observed ∧
          after.expectedOutputTree = before.expectedOutputTree := by
        simp only [Bool.not_eq_true] at hreset
        refine ⟨?_, ?_, ?_⟩
        · simpa [hreset, hb] using hbefore
        · simpa [ho] using hobserved
        · simpa [ht] using htree
      obtain ⟨b', o', t', -, ho', -, hcommit'⟩ := after.commit_eq hproven
      refine ⟨hproven, hsame.1, hsame.2.1, hsame.2.2, ?_⟩
      -- the commit is the observed head on both sides
      have hhead : some o' = some o := by rw [← ho', hsame.2.1, ho]
      rw [hcommit', hcommit, Option.some.inj hhead]

theorem leg_step {current updated : LifecycleOperationRecord} (h : Envelope current updated)
    {leg : CloseoutMutationLeg} {before : GitMutationEvidence}
    (hbefore : current.mutationEvidence.get leg = some before) :
    ∃ after, updated.mutationEvidence.get leg = some after ∧
      LegStep current updated leg before after := by
  have hmutation := h.mutation
  simp only [validateMutationEvidenceTransition, inOrder_cons_ok, inOrder_nil_ok, and_true] at hmutation
  have hleg := ok_of_inOrder hmutation.1 (List.mem_map.mpr ⟨_, Legs.mem_items.mpr hbefore, rfl⟩)
  split at hleg
  · cases hleg
  next after hafter => exact ⟨after, hafter, legStep_of_transition hleg⟩

/-- The attempts of a leg are only ever appended to. -/
theorem attempts_step {current updated : LifecycleOperationRecord} (h : Envelope current updated)
    (leg : CloseoutMutationLeg) : current.attempts leg <+: updated.attempts leg := by
  have hmutation := h.mutation
  simp only [validateMutationEvidenceTransition, inOrder_cons_ok, inOrder_nil_ok, and_true] at hmutation
  cases hhistory : current.mutationHistory.get leg with
  | none =>
    rw [LifecycleOperationRecord.attempts, hhistory]
    exact List.nil_prefix
  | some history =>
    have hleg := ok_of_inOrder hmutation.2 (List.mem_map.mpr ⟨_, Legs.mem_items.mpr hhistory, rfl⟩)
    simp only [refuseIf_ok, not_not] at hleg
    rw [LifecycleOperationRecord.attempts, hhistory]
    exact List.prefix_iff_eq_take.mpr hleg.symm

theorem recoveryCommit_step {current updated : LifecycleOperationRecord}
    (h : Envelope current updated) {leg : CloseoutMutationLeg}
    (hcommit : current.recoveryCommit leg ≠ "") :
    updated.recoveryCommit leg = current.recoveryCommit leg := by
  have htransition := h.commits
  unfold validateRecoveryCommitsTransition at htransition
  unfold LifecycleOperationRecord.recoveryCommit at hcommit ⊢
  split at htransition
  next hnone =>
    rw [hnone] at hcommit
    cases leg <;> exact absurd rfl hcommit
  next commits hcommits =>
    rw [hcommits] at hcommit ⊢
    split at htransition
    · cases htransition
    next after hafter =>
      simp only [refuseIf_ok, not_or, not_not, not_and] at htransition
      rw [hafter]
      cases leg with
      | code => exact htransition.1
      | memory => exact htransition.2 hcommit

/-! ## A generation -/

/-- What a later record of a generation keeps of an earlier one. -/
structure Kept (earlier later : LifecycleOperationRecord) : Prop where
  identity : later.toGenerationIdentity = earlier.toGenerationIdentity
  approval : earlier.approvalClaimed = true → later.approvalClaimed = true
  boundary : earlier.irreversibleBoundaryEntered = true → later.irreversibleBoundaryEntered = true
  proven : ∀ leg before, earlier.mutationEvidence.get leg = some before →
    before.state = .commitProven → ∃ after, later.mutationEvidence.get leg = some after ∧
      after.state = .commitProven ∧ after.before = before.before ∧
      after.observed = before.observed ∧ after.expectedOutputTree = before.expectedOutputTree ∧
      after.commit = before.commit
  attempts : ∀ leg, earlier.attempts leg <+: later.attempts leg
  commits : ∀ leg, earlier.recoveryCommit leg ≠ "" →
    later.recoveryCommit leg = earlier.recoveryCommit leg

theorem Kept.refl (record : LifecycleOperationRecord) : Kept record record where
  identity := rfl
  approval := id
  boundary := id
  proven := fun _ before h hstate => ⟨before, h, hstate, rfl, rfl, rfl, rfl⟩
  attempts := fun _ => List.prefix_rfl
  commits := fun _ _ => rfl

theorem Kept.trans {a b c : LifecycleOperationRecord} (hab : Kept a b) (hbc : Kept b c) :
    Kept a c where
  identity := hbc.identity.trans hab.identity
  approval := fun h => hbc.approval (hab.approval h)
  boundary := fun h => hbc.boundary (hab.boundary h)
  proven := by
    intro leg before hbefore hstate
    obtain ⟨middle, hmiddle, hproven, h1, h2, h3, h4⟩ := hab.proven leg before hbefore hstate
    obtain ⟨after, hafter, hlast, k1, k2, k3, k4⟩ := hbc.proven leg middle hmiddle hproven
    exact ⟨after, hafter, hlast, k1.trans h1, k2.trans h2, k3.trans h3, k4.trans h4⟩
  attempts := fun leg => (hab.attempts leg).trans (hbc.attempts leg)
  commits := by
    intro leg hcommit
    have hmiddle := hab.commits leg hcommit
    rw [hbc.commits leg (hmiddle ▸ hcommit), hmiddle]

theorem kept_of_envelope {current updated : LifecycleOperationRecord} (h : Envelope current updated) :
    Kept current updated where
  identity := h.identity
  approval := h.approval
  boundary := h.boundary
  proven := by
    intro leg before hbefore hstate
    obtain ⟨after, hafter, hstep⟩ := leg_step h hbefore
    exact ⟨after, hafter, hstep.proven hstate⟩
  attempts := attempts_step h
  commits := fun _ => recoveryCommit_step h

/-- What one write does, besides keeping what `Kept` says. -/
structure EvidenceStep (current updated : LifecycleOperationRecord) : Prop where
  recordRevision : updated.recordRevision = current.recordRevision + 1
  meaningfulRevision : updated.meaningfulRevision =
    if meaningfulState current = meaningfulState updated then current.meaningfulRevision
    else current.meaningfulRevision + 1
  retried : ∀ leg before after, current.mutationEvidence.get leg = some before →
    updated.mutationEvidence.get leg = some after → before.state = .reconciledUnchanged →
    after.state = .preMutation → updated.attempts leg = current.attempts leg ++ [before]

theorem evidenceStep_of_envelope {current updated : LifecycleOperationRecord}
    (h : Envelope current updated) : EvidenceStep current updated where
  recordRevision := h.revision
  meaningfulRevision := by
    rw [h.meaningful]
    by_cases hsame : meaningfulState current = meaningfulState updated
    · simp [meaningfulStateChanged, hsame]
    · simp [meaningfulStateChanged, hsame]
  retried := by
    intro leg before after hbefore hafter
    obtain ⟨found, hfound, hstep⟩ := leg_step h hbefore
    cases hafter.symm.trans hfound
    exact hstep.retried

/-! ## Runs -/

section runs
variable {store : LifecycleOperationStore} {r s : LifecycleOperationRecord}

theorem kept_run {ls : List LifecycleOperationStore.WriteCall}
    (hrun : Runs.run store.write r ls = some s) : Kept r s :=
  Runs.Reachable.invariant (fun _ _ _ hkept hw =>
    hkept.trans (kept_of_envelope (envelope_ok (write_accepted hw).envelope))) (Kept.refl r) ⟨ls, hrun⟩

theorem stored_run {ls : List LifecycleOperationStore.WriteCall} (hr : store.Stored r)
    (hrun : Runs.run store.write r ls = some s) : store.Stored s :=
  Runs.Reachable.invariant (fun _ _ _ _ hw => (write_accepted hw).stored) hr ⟨ls, hrun⟩

theorem valid_of_stored (h : store.Stored s) : Valid s := by
  simp only [LifecycleOperationStore.Stored, LifecycleOperationStore.requireWritable,
    inOrder_cons_ok] at h
  exact h.1

/-- In a stored record the recovery commit of a proven leg is its commit. -/
theorem recoveryCommit_of_stored (h : store.Stored s) {leg : CloseoutMutationLeg} {commit : String}
    (hproven : s.provenCommit leg = some commit) : s.recoveryCommit leg = commit := by
  by_cases hkind : s.operationKind = .integrate
  · -- an integration carries no mutation evidence
    have hvalid := valid_of_stored h
    simp only [Valid, requireAltitudeAuthority, inOrder_cons_ok, hkind, ne_eq, not_true,
      if_false, refuseIf_ok, not_not] at hvalid
    obtain ⟨-, -, -, -, -, -, -, -, -, -, -, -, -, hitems, -⟩ := hvalid
    unfold LifecycleOperationRecord.provenCommit at hproven
    split at hproven
    next evidence hevidence =>
      have hmem := Legs.mem_items.mpr hevidence
      rw [hitems] at hmem
      cases hmem
    · cases hproven
  · simp only [LifecycleOperationStore.Stored, LifecycleOperationStore.requireWritable,
      inOrder_cons_ok] at h
    exact recoveryCommit_of_projected h.2.2.2.1 hkind hproven

theorem recordRevision_run {ls : List LifecycleOperationStore.WriteCall}
    (hrun : Runs.run store.write r ls = some s) :
    s.recordRevision = r.recordRevision + ls.length := by
  induction ls generalizing r with
  | nil => cases hrun; rfl
  | cons w ls ih =>
    obtain ⟨updated, hw, hrest⟩ := Runs.run_cons_eq_some.mp hrun
    have hstep := (envelope_ok (write_accepted hw).envelope).revision
    rw [ih hrest, hstep, List.length_cons]
    omega

/-- Lifecycle generation evidence is monotone, under every run of writes. -/
theorem generation_evidence_monotone (store : LifecycleOperationStore)
    (r s : LifecycleOperationRecord) (ls : List LifecycleOperationStore.WriteCall)
    (hr : store.Stored r) (hrun : Runs.run store.write r ls = some s) :
    Kept r s ∧
    (∀ leg commit, s.provenCommit leg = some commit → s.recoveryCommit leg = commit) ∧
    s.recordRevision = r.recordRevision + ls.length ∧
    Runs.Along store.write (fun current _ updated => EvidenceStep current updated) r ls := by
  refine ⟨kept_run hrun, fun _ _ => recoveryCommit_of_stored (stored_run hr hrun),
    recordRevision_run hrun, ?_⟩
  apply Runs.along_of_forall
  intro pre w post _ current updated _ hw
  exact evidenceStep_of_envelope (envelope_ok (write_accepted hw).envelope)

end runs

/-! ## A commit without a proof -/

/-- A closeout whose code is committed already; only its memory leg commits. -/
def memoryCloseout : LifecycleOperationRecord where
  taskId := "260801-L1"
  taskName := "leaf"
  contractPath := "/coord/tasks/repo/leaf/enclosures/contract.md"
  operationKind := .closeout
  candidateState := "cc"
  taskIntent := some (.identity "dd")
  fingerprint := "f1"
  operationKey := "k1"
  input := .closeout ⟨"worktree", "leaf", .external, .notApplicable "no code change",
    .enabled "memory changed" "Record the leaf"⟩ "approved" ""
  reportPath := "/coord/tasks/repo/leaf/.lifecycle/closeout-operation.log"
  status := .running
  phase := .memoryCommit
  queuedAt := "2026-08-24T00:00:00+00:00"
  mutationEvidence :=
    { memory := some { leg := .memory, repository := "/coord/memory", evidence := by decide } }

/-- The store of a closeout. -/
def closeoutStore : LifecycleOperationStore := ⟨some .closeout⟩

/-- The worker reports the code commit that was there before it. -/
def reportCode : LifecycleOperationStore.WriteCall :=
  .update fun record => .ok
    { record with recoveryCommits := some { codeCommit := "a1b2", nonempty := by decide } }

/-- A write that only moves the heartbeat. -/
def heartbeat : LifecycleOperationStore.WriteCall :=
  .update fun record => .ok { record with heartbeatAt := some "2026-08-24T00:00:30+00:00" }

theorem generation_evidence_monotone_reported :
    ∃ s, Runs.run closeoutStore.write memoryCloseout [heartbeat, reportCode] = some s ∧
      s.meaningfulRevision = memoryCloseout.meaningfulRevision + 1 ∧
      (Kept memoryCloseout s ∧
        (∀ leg commit, s.provenCommit leg = some commit → s.recoveryCommit leg = commit) ∧
        s.recordRevision = memoryCloseout.recordRevision + [heartbeat, reportCode].length ∧
        Runs.Along closeoutStore.write (fun current _ updated => EvidenceStep current updated)
          memoryCloseout [heartbeat, reportCode]) := by
  have hrun : ((Runs.run closeoutStore.write memoryCloseout [heartbeat, reportCode]).map
      fun s => s.meaningfulRevision) = some 2 := by
    decide +kernel
  obtain ⟨s, hs, hrevision⟩ := Option.map_eq_some_iff.mp hrun
  exact ⟨s, hs, hrevision,
    generation_evidence_monotone closeoutStore memoryCloseout s _ (by decide +kernel) hs⟩

/-- A recovery commit may be recorded for a leg that proves nothing. -/
theorem recovery_commit_without_proof : closeoutStore.Stored memoryCloseout ∧
    ∃ s, closeoutStore.write memoryCloseout reportCode = some s ∧
      s.recoveryCommit .code ≠ "" ∧ s.provenCommit .code ≠ some (s.recoveryCommit .code) := by
  have hwrite : ((closeoutStore.write memoryCloseout reportCode).map fun s =>
      decide (s.recoveryCommit .code ≠ "" ∧
        s.provenCommit .code ≠ some (s.recoveryCommit .code))) = some true := by
    decide +kernel
  obtain ⟨s, hs, hp⟩ := Option.map_eq_some_iff.mp hwrite
  exact ⟨by decide +kernel, s, hs, of_decide_eq_true hp⟩

end AgentsRemember.Lifecycle
