import AgentsRemember.Lifecycle.Evidence

/-!
# Lifecycle — Terminal

A cancelled generation stays cancelled. A completed one may be asked to
terminate its worker, and the store takes any status after that: whether the
generation stays completed is up to the writes that pass through there.
-/

namespace AgentsRemember.Lifecycle

open LifecycleOperationStore

/-- The worker of a completed generation is to exit. -/
def AwaitsCompleted (record : LifecycleOperationRecord) : Prop :=
  record.status = .terminationRequired ∧ record.terminationReturnStatus = some .completed

/-- The generation reports completed, or can only return to it. -/
def Finished (record : LifecycleOperationRecord) : Prop :=
  record.status = .completed ∨ AwaitsCompleted record

/-- The write records completed as the status to return to, and returns to it. -/
def HonoursReturn (current : LifecycleOperationRecord) (w : WriteCall) : Prop :=
  ∀ transformed, w.transform current = .ok transformed →
    (current.status = .completed → transformed.status = .terminationRequired →
      transformed.terminationReturnStatus = some .completed) ∧
    (AwaitsCompleted current → transformed.status = .completed ∨ AwaitsCompleted transformed)

section runs
variable {store : LifecycleOperationStore} {current updated : LifecycleOperationRecord}
  {w : WriteCall}

theorem cancelled_step (h : store.Accepted current w updated) (hc : current.status = .cancelled) :
    updated.status = .cancelled := by
  obtain ⟨hstatus, -⟩ | ⟨hresumable, -⟩ := h.edge
  · simpa [hc, allowedStatuses] using hstatus
  · simp [hc, nonResumableStatuses] at hresumable

/-- From completed a write goes to completed or asks for termination. -/
theorem completed_step (h : store.Accepted current w updated) (hc : current.status = .completed) :
    updated.status = .completed ∨ updated.status = .terminationRequired := by
  obtain ⟨hstatus, -⟩ | ⟨hresumable, -⟩ := h.edge
  · simpa [hc, allowedStatuses] using hstatus
  · simp [hc, nonResumableStatuses] at hresumable

/-- A write keeps a finished generation finished exactly when it honours the return. -/
theorem finished_step (h : store.Accepted current w updated) (hf : Finished current) :
    Finished updated ↔ HonoursReturn current w := by
  obtain ⟨transformed, htransform, -, -, hupdated⟩ := h.advanced
  have hstatus : updated.status = transformed.status := by rw [hupdated]
  have hreturn : updated.terminationReturnStatus = transformed.terminationReturnStatus := by
    rw [hupdated]
  have hfinished : Finished updated ↔ Finished transformed := by
    simp only [Finished, AwaitsCompleted, hstatus, hreturn]
  rw [hfinished]
  constructor
  · intro hnext found hfound
    cases htransform.symm.trans hfound
    refine ⟨fun _ hrequired => ?_, fun _ => hnext⟩
    obtain hcompleted | hawaits := hnext
    · rw [hrequired] at hcompleted; cases hcompleted
    · exact hawaits.2
  · intro hhonours
    obtain ⟨hasks, hawaits⟩ := hhonours transformed htransform
    obtain hc | ha := hf
    · obtain hnext | hnext := completed_step h hc
      · exact .inl (hstatus ▸ hnext)
      · exact .inr ⟨hstatus ▸ hnext, hasks hc (hstatus ▸ hnext)⟩
    · exact hawaits ha

theorem generation_step (h : store.Accepted current w updated) :
    updated.generation = current.generation :=
  congrArg GenerationIdentity.generation (envelope_ok h.envelope).identity

end runs

/-- A cancelled generation stays cancelled in every run; a completed one stays
finished in exactly those runs whose writes honour the recorded return. -/
theorem finished_generation_never_runs_iff (store : LifecycleOperationStore)
    (r : LifecycleOperationRecord) (ls : List WriteCall) :
    (r.status = .cancelled → Runs.Always store.write
      (fun s => s.generation = r.generation ∧ s.status = .cancelled) r ls) ∧
    (r.status = .completed → (Runs.Always store.write
        (fun s => s.generation = r.generation ∧ Finished s) r ls ↔
      Runs.Along store.write (fun current w _ => HonoursReturn current w) r ls)) := by
  constructor
  · intro hcancelled
    refine Runs.always_of_invariant (I := fun s : LifecycleOperationRecord =>
      s.generation = r.generation ∧ s.status = .cancelled) (fun current w updated hi hw => ?_) (fun s hi => hi) ⟨rfl, hcancelled⟩
    have haccepted := write_accepted hw
    exact ⟨(generation_step haccepted).trans hi.1, cancelled_step haccepted hi.2⟩
  · intro hcompleted
    have hstart : r.generation = r.generation ∧ Finished r := ⟨rfl, .inl hcompleted⟩
    have hsame : Runs.Along store.write (fun current w _ => HonoursReturn current w) r ls ↔
        Runs.Along store.write (fun _ _ s => s.generation = r.generation ∧ Finished s) r ls := by
      refine Runs.along_iff_along (I := fun s => s.generation = r.generation ∧ Finished s)
        ?_ ?_ hstart
      · intro current w updated hi hw hhonours
        have haccepted := write_accepted hw
        exact ⟨(generation_step haccepted).trans hi.1, (finished_step haccepted hi.2).mpr hhonours⟩
      · intro current w updated hi hw
        have haccepted := write_accepted hw
        have hgeneration := (generation_step haccepted).trans hi.1
        constructor
        · intro hhonours
          exact ⟨hgeneration, (finished_step haccepted hi.2).mpr hhonours⟩
        · intro hnext
          exact (finished_step haccepted hi.2).mp hnext.2
    exact ⟨fun h => hsame.mpr h.2, fun h => ⟨hstart, hsame.mp h⟩⟩

/-! ## A completed integration that runs again -/

/-- An integration that is completed. -/
def completedIntegration : LifecycleOperationRecord where
  taskId := "260801-L1"
  taskName := "leaf"
  contractPath := "/coord/tasks/repo/leaf/enclosures/contract.md"
  operationKind := .integrate
  candidateState := "cc"
  fingerprint := "f1"
  operationKey := "k1"
  integrationAuthority := some { codeCandidateCommit := "a1b2" }
  input := .integrate "ff-only"
  reportPath := "/coord/tasks/repo/leaf/.lifecycle/integrate-operation.log"
  status := .completed
  phase := .completed
  queuedAt := "2026-08-24T00:00:00+00:00"
  workerPid := some 4711
  workerLease := some "l1"
  workerProcessFingerprint := some "p1"

/-- The store of an integration. -/
def integrateStore : LifecycleOperationStore := ⟨some .integrate⟩

/-- The worker is still there when its generation is completed. -/
def askTermination : WriteCall :=
  .update fun record => .ok
    { record with
      status := .terminationRequired
      phase := .terminationRequired
      workerTermination := some
        { state := .requested, pid := 4711, lease := "l1", processFingerprint := "p1"
          requestedAt := "2026-08-24T00:01:00+00:00", exitHasObservation := by decide }
      terminationReturnStatus := some .completed
      terminationReturnPhase := some .completed }

/-- Leave the status that asks for termination. -/
def leaveTermination (status : LifecycleOperationStatus) : WriteCall :=
  .update fun record => .ok
    { record with
      status := status
      phase := .completed
      terminationReturnStatus := none
      terminationReturnPhase := none }

theorem finished_generation_never_runs_returned :
    Runs.Always integrateStore.write
      (fun s => s.generation = completedIntegration.generation ∧ Finished s) completedIntegration
      [askTermination, leaveTermination .completed] := by
  refine ((finished_generation_never_runs_iff integrateStore completedIntegration _).2 rfl).mpr ?_
  intro asked _
  refine ⟨?_, ?_⟩
  · intro transformed ht
    cases ht
    exact ⟨fun _ _ => rfl, fun h => nomatch h.1⟩
  · intro left _
    refine ⟨?_, trivial⟩
    intro transformed ht
    cases ht
    exact ⟨fun _ h => (nomatch h), fun _ => .inl rfl⟩

/-- The store lets a completed generation run again, in two writes. -/
theorem completed_generation_runs_again : integrateStore.Stored completedIntegration ∧
    completedIntegration.status = .completed ∧
    ∃ s, Runs.run integrateStore.write completedIntegration
        [askTermination, leaveTermination .running] = some s ∧ s.status = .running := by
  have hrun : ((Runs.run integrateStore.write completedIntegration
      [askTermination, leaveTermination .running]).map fun s => s.status) = some .running := by
    decide +kernel
  exact ⟨by decide +kernel, rfl, Option.map_eq_some_iff.mp hrun⟩

end AgentsRemember.Lifecycle
