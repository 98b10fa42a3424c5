import AgentsRemember.Foundation.Attempts
import AgentsRemember.Lifecycle.Validate

/-!
# Lifecycle — Recovery

The recovery commits of a record as the projection of its proven mutations, and
the evidence that hands a generation to contract finalization.
-/

namespace AgentsRemember.Lifecycle

open Checks Attempts

/-! ## The projection -/

/-- The two output cells while they are put together. -/
structure RecoveryCells where
  codeCommit : String := ""
  memoryContentCommit : String := ""

/-- The cell of a leg. -/
def RecoveryCells.get (cells : RecoveryCells) : CloseoutMutationLeg → String
  | .code => cells.codeCommit
  | .memory => cells.memoryContentCommit

/-- The cell of a leg, written. -/
def RecoveryCells.set (cells : RecoveryCells) (leg : CloseoutMutationLeg) (commit : String) :
    RecoveryCells :=
  match leg with
  | .code => { cells with codeCommit := commit }
  | .memory => { cells with memoryContentCommit := commit }

/-- The cells a record starts from. -/
def recoveryCells (commits : Option LifecycleOperationRecoveryCommits) : RecoveryCells :=
  match commits with
  | none => {}
  | some commits => ⟨commits.codeCommit, commits.memoryContentCommit⟩

/-- The commit of a proven leg goes into its cell, unless another one is there. -/
def overlayProvenCell (cells : RecoveryCells) (leg : CloseoutMutationLeg)
    (proof : GitMutationEvidence) : Except String RecoveryCells :=
  if proof.state ≠ .commitProven then .ok cells
  else if cells.get leg ≠ "" ∧ some (cells.get leg) ≠ proof.commit then
    .error ("durable " ++ leg.text ++ " recovery commit contradicts Git proof")
  else .ok (cells.set leg (proof.commit.getD ""))

/-- The proven legs over the cells. -/
def overlayProvenCells (cells : RecoveryCells) (evidence : Legs GitMutationEvidence) :
    Except String RecoveryCells :=
  evidence.items.foldlM (fun cells cell => overlayProvenCell cells cell.1 cell.2) cells

/-- The recovery commits that the evidence proves. -/
def deriveCloseoutRecoveryCommits (record : LifecycleOperationRecord) :
    Except String (Option LifecycleOperationRecoveryCommits) := do
  let cells ← overlayProvenCells (recoveryCells record.recoveryCommits) record.mutationEvidence
  if h : cells.codeCommit = "" then
    if commitProven record then
      .error "commit-proven closeout output requires its accepted code commit"
    else .ok none
  else .ok (some ⟨cells.codeCommit, cells.memoryContentCommit, h⟩)

/-- The recorded commits are the ones derived. -/
def requireCloseoutRecoveryProjection (record : LifecycleOperationRecord) : Verdict :=
  if record.operationKind = .integrate then .ok ()
  else do
    let projected ← deriveCloseoutRecoveryCommits record
    refuseIf (projected ≠ record.recoveryCommits)
      "closeout recovery commits must be the exact projection of commit-proven evidence"

/-- The commit a leg has proven. -/
def LifecycleOperationRecord.provenCommit (record : LifecycleOperationRecord)
    (leg : CloseoutMutationLeg) : Option String :=
  match record.mutationEvidence.get leg with
  | some evidence => if evidence.state = .commitProven then evidence.commit else none
  | none => none

/-- The recovery commit of a leg, empty where none is recorded. -/
def LifecycleOperationRecord.recoveryCommit (record : LifecycleOperationRecord)
    (leg : CloseoutMutationLeg) : String :=
  (recoveryCells record.recoveryCommits).get leg

theorem overlay_other {cells cells' : RecoveryCells} {leg other : CloseoutMutationLeg}
    {proof : GitMutationEvidence} (h : overlayProvenCell cells leg proof = .ok cells')
    (hne : other ≠ leg) : cells'.get other = cells.get other := by
  unfold overlayProvenCell at h
  split at h
  · cases h; rfl
  · split at h
    · cases h
    · cases h
      cases leg <;> cases other <;> first | exact absurd rfl hne | rfl

theorem overlay_proven {cells cells' : RecoveryCells} {leg : CloseoutMutationLeg}
    {proof : GitMutationEvidence} (h : overlayProvenCell cells leg proof = .ok cells')
    (hproven : proof.state = .commitProven) : some (cells'.get leg) = proof.commit := by
  obtain ⟨before, observed, tree, -, -, -, hcommit⟩ := proof.commit_eq hproven
  unfold overlayProvenCell at h
  rw [if_neg (by simp [hproven])] at h
  split at h
  · cases h
  · cases h
    rw [hcommit]
    cases leg <;> rfl

/-- After the overlay every proven leg's cell is its commit. -/
theorem overlayProvenCells_proven {evidence : Legs GitMutationEvidence}
    {cells cells' : RecoveryCells} (h : overlayProvenCells cells evidence = .ok cells')
    {leg : CloseoutMutationLeg} {proof : GitMutationEvidence}
    (hproof : evidence.get leg = some proof) (hproven : proof.state = .commitProven) :
    some (cells'.get leg) = proof.commit := by
  obtain ⟨code, memory⟩ := evidence
  cases code with
  | none =>
    cases memory with
    | none => cases leg <;> cases hproof
    | some memory =>
      cases leg with
      | code => cases hproof
      | memory =>
        cases hproof
        simp only [overlayProvenCells, Legs.items, Legs.get, List.filterMap_cons, Option.map_none,
          Option.map_some, List.filterMap_nil, List.foldlM_cons, List.foldlM_nil] at h
        obtain ⟨_, hm, h⟩ := bind_eq_ok.mp h
        cases h
        exact overlay_proven hm hproven
  | some code =>
    cases memory with
    | none =>
      cases leg with
      | memory => cases hproof
      | code =>
        cases hproof
        simp only [overlayProvenCells, Legs.items, Legs.get, List.filterMap_cons, Option.map_none,
          Option.map_some, List.filterMap_nil, List.foldlM_cons, List.foldlM_nil] at h
        obtain ⟨_, hc, h⟩ := bind_eq_ok.mp h
        cases h
        exact overlay_proven hc hproven
    | some memory =>
      simp only [overlayProvenCells, Legs.items, Legs.get, List.filterMap_cons,
        Option.map_some, List.filterMap_nil, List.foldlM_cons, List.foldlM_nil] at h
      obtain ⟨_, hc, h⟩ := bind_eq_ok.mp h
      obtain ⟨_, hm, h⟩ := bind_eq_ok.mp h
      cases h
      cases leg with
      | code =>
        cases hproof
        rw [overlay_other hm (by decide)]
        exact overlay_proven hc hproven
      | memory =>
        cases hproof
        exact overlay_proven hm hproven

/-- In a projected record the recovery commit of a proven leg is its commit. -/
theorem recoveryCommit_of_projected {record : LifecycleOperationRecord}
    (h : requireCloseoutRecoveryProjection record = .ok ())
    (hkind : record.operationKind ≠ .integrate) {leg : CloseoutMutationLeg} {commit : String}
    (hproven : record.provenCommit leg = some commit) : record.recoveryCommit leg = commit := by
  unfold LifecycleOperationRecord.provenCommit at hproven
  split at hproven
  next evidence hevidence =>
    split at hproven
    next hstate =>
      rw [requireCloseoutRecoveryProjection, if_neg hkind] at h
      obtain ⟨projected, hprojected, h⟩ := bind_eq_ok.mp h
      have hsame : projected = record.recoveryCommits := by simpa using h
      obtain ⟨cells, hcells, hprojected⟩ := bind_eq_ok.mp hprojected
      have hcell := overlayProvenCells_proven hcells hevidence hstate
      rw [hproven] at hcell
      split at hprojected
      · split at hprojected
        · cases hprojected
        next hnone =>
          -- a leg is proven, so the projection is not empty
          exact absurd (List.any_eq_true.mpr
            ⟨(leg, evidence), Legs.mem_items.mpr hevidence, by simpa using hstate⟩) hnone
      · cases hprojected
        rw [LifecycleOperationRecord.recoveryCommit, ← hsame]
        exact Option.some.inj hcell
    · cases hproven
  · cases hproven

/-! ## Finalization -/

/-- A commit may have run. -/
def closeoutRequiresRecovery (record : LifecycleOperationRecord) : Bool :=
  record.mutationEvidence.items.any fun cell =>
    cell.2.state = .mutationIntent || cell.2.state = .commitProven

/-- The status and phase that a finalization goes with. -/
def validFinalizationLifecycle (record : LifecycleOperationRecord) : Bool :=
  match record.status with
  | .queued => record.phase = .recoveringAfterClaim
  | .running => record.phase ∈ [.preflight, .recoveringAfterClaim, .contractFinalization]
  | .inputRequired => record.phase = .contractFinalization
  | .completed => record.phase = .completed &&
      record.resultState ∈ [some (.str "closed"), some (.str "already-closed")]
  | _ => false

/-- The record proves all that a finalization needs. -/
def hasExactFinalizationEvidence (record : LifecycleOperationRecord) : Bool :=
  match record.input, record.recoveryCommits with
  | .closeout effectiveInput _ _, some commits =>
    record.operationKind = .closeout && record.closeoutFinalizedContractSha256.isSome &&
      record.approvalClaimed && validFinalizationLifecycle record &&
      if effectiveInput.memoryMode = .external then commits.memoryContentCommit ≠ ""
      else commits.memoryContentCommit = ""
  | _, _ => false

/-- A finalized contract has its evidence. -/
def requireCloseoutFinalizationEvidence (record : LifecycleOperationRecord) : Verdict :=
  if record.closeoutFinalizedContractSha256 = none then .ok ()
  else refuseIf (hasExactFinalizationEvidence record = false)
    "closeout finalized contract SHA-256 requires claimed approval and complete recovery commits"

/-- The generation may not be thrown away. -/
def closeoutGenerationRetained (record : LifecycleOperationRecord) : Bool :=
  record.preparation.isSome || record.legacyMigration.isSome || closeoutRequiresRecovery record ||
    hasExactFinalizationEvidence record

/-- The phase in which a retained closeout generation is resumed. -/
def closeoutRecoveryPhase (record : LifecycleOperationRecord) : Option LifecycleOperationPhase :=
  if record.operationKind ≠ .closeout ∨ closeoutGenerationRetained record = false then none
  else
    let claimed := record.approvalClaimed || record.irreversibleBoundaryEntered ||
      closeoutRequiresRecovery record || record.legacyMigration.isSome ||
      record.closeoutFinalizedContractSha256.isSome
    if record.preparation.isSome ∧ claimed = false then some .recoveringPrivatePreparation
    else some .recoveringAfterClaim

end AgentsRemember.Lifecycle
