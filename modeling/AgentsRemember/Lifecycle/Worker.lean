import AgentsRemember.Lifecycle.Terminal

/-!
# Lifecycle — Worker

The worker bound to a generation. The store guards the lease and the clearing
of the process id; that the rest of the binding stays, and that an exit proof
names the worker it releases, is up to the writes.
-/

namespace AgentsRemember.Lifecycle

open Checks LifecycleOperationStore

/-- The proof that the last worker exited, while it is the current evidence. -/
def LifecycleOperationRecord.exitProof (record : LifecycleOperationRecord) :
    Option WorkerTerminationEvidence :=
  record.workerTermination.filter fun termination => termination.state = .exited

/-- Every exit proof of the generation, oldest first. -/
def LifecycleOperationRecord.exitProofs (record : LifecycleOperationRecord) :
    List WorkerTerminationEvidence :=
  record.workerTerminationHistory ++ record.exitProof.toList

/-- No worker. -/
def unbound : WorkerBinding := (none, none, none)

/-- What the evidence says beside the worker it names and the state that is in. -/
def WorkerTerminationEvidence.observation (termination : WorkerTerminationEvidence) :
    String × Option String × String × Option String :=
  (termination.signal, termination.observedAt, termination.detail, termination.failureEvidence)

/-- Evidence of a worker that has not exited names the worker that is bound. -/
def NamesWorker (record : LifecycleOperationRecord) : Prop :=
  ∀ termination, record.workerTermination = some termination → termination.state ≠ .exited →
    termination.binding = record.binding

/-- The write keeps the whole binding under a lease, names the bound worker in
new evidence, lets an exit proof that stays say what it said, and adds to the
history only by moving the proof there. -/
structure ExactWorker (current transformed : LifecycleOperationRecord) : Prop where
  keeps : current.workerLease ≠ none → transformed.workerLease = current.workerLease →
    transformed.binding = current.binding
  namesLive : ∀ termination, current.workerTermination = none →
    transformed.workerTermination = some termination → termination.state ≠ .exited →
    termination.binding = transformed.binding
  namesExited : ∀ termination, current.workerTermination = none →
    transformed.workerTermination = some termination → termination.state = .exited →
    current.workerLease ≠ none → termination.binding = current.binding
  proof : ∀ before after, current.exitProof = some before →
    transformed.workerTermination = some after → after.observation = before.observation
  history : transformed.workerTerminationHistory.length ≤
      current.workerTerminationHistory.length ∨
    workerExitWasArchived current transformed = true

/-- Whatever the transform returns is exact about the worker. -/
def WritesExactWorker (current : LifecycleOperationRecord) (w : WriteCall) : Prop :=
  ∀ transformed, w.transform current = .ok transformed → ExactWorker current transformed

/-- What a write does to the worker and to the exit proofs. -/
structure WorkerStep (current updated : LifecycleOperationRecord) : Prop where
  released : current.binding ≠ unbound → updated.binding ≠ current.binding →
    updated.binding = unbound ∧ ∃ termination, updated.exitProof = some termination ∧
      termination.binding = current.binding
  retained : updated.exitProofs = current.exitProofs ∨
    ∃ termination, updated.exitProof = some termination ∧
      updated.exitProofs = current.exitProofs ++ [termination]

/-! ## What the validators give -/

theorem exitProof_eq_some {record : LifecycleOperationRecord}
    {termination : WorkerTerminationEvidence} :
    record.exitProof = some termination ↔
      record.workerTermination = some termination ∧ termination.state = .exited := by
  simp [LifecycleOperationRecord.exitProof, Option.filter_eq_some_iff]

/-- In a valid record the binding is whole, live evidence names its process id
and lease, and an exit proof leaves no binding. -/
structure WorkerValid (record : LifecycleOperationRecord) : Prop where
  whole : record.workerPid = none ∨ record.workerLease = none → record.binding = unbound
  live : ∀ termination, record.workerTermination = some termination →
    termination.state ≠ .exited →
    some termination.lease = record.workerLease ∧ some termination.pid = record.workerPid
  exited : ∀ termination, record.exitProof = some termination → record.binding = unbound

theorem binding_eq_unbound {record : LifecycleOperationRecord} :
    record.binding = unbound ↔ bindingPresent record = false := by
  simp [LifecycleOperationRecord.binding, unbound, bindingPresent, and_assoc]

theorem workerValid_of_valid {record : LifecycleOperationRecord} (h : Valid record) :
    WorkerValid record := by
  simp only [Valid, requireAltitudeAuthority, inOrder_cons_ok] at h
  obtain ⟨-, -, -, -, -, -, -, -, -, -, -, -, -, -, hworker, -⟩ := h
  unfold requireWorkerAuthority at hworker
  split at hworker
  next hdirect =>
    -- a direct landing has no worker at all
    simp only [requireNoDirectWorkerAuthority, refuseIf_ok, not_or, not_not,
      Bool.not_eq_true] at hworker
    have hnone := binding_eq_unbound.mpr hworker.1
    refine ⟨fun _ => hnone, ?_, fun _ _ => hnone⟩
    intro termination ht
    rw [hworker.2.1] at ht
    cases ht
  next hdetached =>
    simp only [inOrder_cons_ok, inOrder_nil_ok, and_true] at hworker
    obtain ⟨hcomplete, -, htermination⟩ := hworker
    simp only [requireCompleteWorkerBinding, refuseIf_ok, not_not] at hcomplete
    refine ⟨?_, ?_, ?_⟩
    · intro hmissing
      apply binding_eq_unbound.mpr
      rw [hcomplete]
      obtain hnone | hnone := hmissing
      · simp [hnone]
      · simp [hnone]
    · intro termination ht hstate
      simp only [ht, inOrder_cons_ok, refuseIf_ok] at htermination
      have hsame := htermination.1
      push Not at hsame
      exact hsame hstate
    · intro termination ht
      obtain ⟨ht, hstate⟩ := exitProof_eq_some.mp ht
      simp only [ht, inOrder_cons_ok, refuseIf_ok, not_and, Bool.not_eq_true] at htermination
      exact binding_eq_unbound.mpr (htermination.2.1 hstate)

/-- What the store lets a write do to the worker's cells. -/
structure WorkerEnvelope (current updated : LifecycleOperationRecord) : Prop where
  lease : current.workerLease ≠ none →
    updated.workerLease = current.workerLease ∨ updated.workerLease = none
  cleared : current.workerPid ≠ none → updated.workerPid = none →
    ∃ termination, updated.exitProof = some termination
  evidence : ∀ before, current.workerTermination = some before →
    workerExitWasArchived current updated = true ∨
      ∃ after, updated.workerTermination = some after ∧
        after.state ∈ terminationAllowed before.state ∧ after.binding = before.binding ∧
        after.requestedAt = before.requestedAt
  history : current.workerTerminationHistory <+: updated.workerTerminationHistory

theorem workerEnvelope_ok {current updated : LifecycleOperationRecord}
    (h : validateWorkerTransition current updated = .ok ()) : WorkerEnvelope current updated := by
  simp only [validateWorkerTransition, inOrder_cons_ok, validateWorkerAuthorityTransition,
    refuseIf_ok] at h
  obtain ⟨hevidence, ⟨hlease, hpid, -⟩, hhistory, -⟩ := h
  push Not at hlease hpid hhistory
  refine ⟨?_, ?_, ?_, List.prefix_iff_eq_take.mpr hhistory.symm⟩
  · intro hbound
    apply Classical.byContradiction
    intro hne
    rw [not_or] at hne
    exact hne.2 (hlease hbound hne.1)
  · intro hbound hcleared
    obtain ⟨termination, ht, hstate⟩ := hpid hbound hcleared
    exact ⟨termination, exitProof_eq_some.mpr ⟨ht, hstate⟩⟩
  · intro before hbefore
    rw [hbefore] at hevidence
    dsimp only at hevidence
    split at hevidence
    next harchived => exact .inl harchived
    · right
      unfold validateWorkerTerminationEvidence at hevidence
      split at hevidence
      · cases hevidence
      next after hafter =>
        simp only [inOrder_cons_ok, refuseIf_ok, not_not] at hevidence
        obtain ⟨hallowed, hidentity, -⟩ := hevidence
        push Not at hidentity
        refine ⟨after, hafter, hallowed, ?_, hidentity.2.2.2⟩
        simp [WorkerTerminationEvidence.binding, hidentity]

theorem exitProof_of_archived {current updated : LifecycleOperationRecord}
    (h : workerExitWasArchived current updated = true) :
    ∃ before, current.exitProof = some before ∧ updated.workerTermination = none ∧
      updated.workerTerminationHistory = current.workerTerminationHistory ++ [before] := by
  unfold workerExitWasArchived at h
  cases hbefore : current.workerTermination with
  | none => simp [hbefore] at h
  | some before =>
    simpa [LifecycleOperationRecord.exitProof, hbefore, Option.filter_some, and_assoc] using h

/-! ## One write -/

theorem binding_ne_unbound {record : LifecycleOperationRecord} (h : WorkerValid record) :
    record.binding ≠ unbound ↔ record.workerLease ≠ none := by
  refine ⟨fun hbound hlease => hbound (h.whole (.inr hlease)), ?_⟩
  intro hlease hunbound
  exact hlease (congrArg (fun b => b.2.1) hunbound)

section step
variable {current updated : LifecycleOperationRecord}

/-- Live evidence keeps naming the bound worker. -/
theorem namesWorker_step (hvalid : WorkerValid current) (hvalid' : WorkerValid updated)
    (henvelope : WorkerEnvelope current updated) (hexact : ExactWorker current updated)
    (hnames : NamesWorker current) : NamesWorker updated := by
  intro termination ht hstate
  cases hbefore : current.workerTermination with
  | none => exact hexact.namesLive termination hbefore ht hstate
  | some before =>
    obtain harchived | ⟨after, hafter, hallowed, hsame, -⟩ := henvelope.evidence before hbefore
    · obtain ⟨-, -, hnone, -⟩ := exitProof_of_archived harchived
      rw [hnone] at ht
      cases ht
    · cases ht.symm.trans hafter
      -- evidence that has not exited now had not exited before
      have hlive : before.state ≠ .exited := by
        intro hexited
        simp [hexited, terminationAllowed, hstate] at hallowed
      have hcurrent := hnames before hbefore hlive
      have hlease := (hvalid.live before hbefore hlive).1
      have hlease' := (hvalid'.live termination ht hstate).1
      have heq : termination.lease = before.lease :=
        Option.some.inj (congrArg (fun b : WorkerBinding => b.2.1) hsame)
      rw [hsame, hcurrent]
      refine (hexact.keeps (fun hnone => ?_) ?_).symm
      · rw [hnone] at hlease; cases hlease
      · rw [← hlease', ← hlease, heq]

/-- A binding is only ever left for none, and with a proof of its own exit. -/
theorem released_step (hvalid : WorkerValid current) (hvalid' : WorkerValid updated)
    (henvelope : WorkerEnvelope current updated) (hexact : ExactWorker current updated)
    (hnames : NamesWorker current) (hbound : current.binding ≠ unbound)
    (hne : updated.binding ≠ current.binding) :
    updated.binding = unbound ∧ ∃ termination, updated.exitProof = some termination ∧
      termination.binding = current.binding := by
  have hlease := (binding_ne_unbound hvalid).mp hbound
  obtain hsame | hcleared := henvelope.lease hlease
  · exact absurd (hexact.keeps hlease hsame) hne
  have hunbound := hvalid'.whole (.inr hcleared)
  refine ⟨hunbound, ?_⟩
  have hpid : current.workerPid ≠ none := fun hnone => hbound (hvalid.whole (.inl hnone))
  obtain ⟨termination, hproof⟩ :=
    henvelope.cleared hpid (congrArg (fun b : WorkerBinding => b.1) hunbound)
  obtain ⟨ht, hstate⟩ := exitProof_eq_some.mp hproof
  refine ⟨termination, hproof, ?_⟩
  cases hbefore : current.workerTermination with
  | none => exact hexact.namesExited termination hbefore ht hstate hlease
  | some before =>
    -- a worker is bound, so the evidence so far is no exit proof
    have hlive : before.state ≠ .exited := fun hexited =>
      hbound (hvalid.exited before (exitProof_eq_some.mpr ⟨hbefore, hexited⟩))
    obtain harchived | ⟨after, hafter, -, hsame, -⟩ := henvelope.evidence before hbefore
    · obtain ⟨found, hfound, -⟩ := exitProof_of_archived harchived
      obtain ⟨hfound, hexited⟩ := exitProof_eq_some.mp hfound
      cases hbefore.symm.trans hfound
      exact absurd hexited hlive
    · cases ht.symm.trans hafter
      rw [hsame, hnames before hbefore hlive]

/-- An exit proof that is not moved to the history stays as it is. -/
theorem exitProof_stays (henvelope : WorkerEnvelope current updated)
    (hexact : ExactWorker current updated) (harchived : ¬workerExitWasArchived current updated = true)
    {before : WorkerTerminationEvidence} (hproof : current.exitProof = some before) :
    updated.exitProof = some before := by
  obtain ⟨hbefore, hexited⟩ := exitProof_eq_some.mp hproof
  obtain ⟨after, hafter, hallowed, hbinding, hrequested⟩ :=
    (henvelope.evidence before hbefore).resolve_left harchived
  have hstate : after.state = .exited := by simpa [hexited, terminationAllowed] using hallowed
  have hobserved := hexact.proof before after hproof hafter
  have hsame : after = before := by
    obtain ⟨⟩ := after
    obtain ⟨⟩ := before
    simp only [WorkerTerminationEvidence.binding, WorkerTerminationEvidence.observation,
      Prod.mk.injEq, Option.some.injEq] at hbinding hobserved hstate hexited hrequested
    simp [hbinding, hobserved, hstate, hexited, hrequested]
  exact exitProof_eq_some.mpr ⟨hsame ▸ hafter, hexited⟩

/-- The exit proofs stay, in order, and at most one more comes behind them. -/
theorem retained_step (henvelope : WorkerEnvelope current updated)
    (hexact : ExactWorker current updated) :
    updated.exitProofs = current.exitProofs ∨
      ∃ termination, updated.exitProof = some termination ∧
        updated.exitProofs = current.exitProofs ++ [termination] := by
  by_cases harchived : workerExitWasArchived current updated = true
  · left
    obtain ⟨before, hbefore, hnone, hhistory⟩ := exitProof_of_archived harchived
    have hafter : updated.exitProof = none := by
      simp [LifecycleOperationRecord.exitProof, hnone]
    simp [LifecycleOperationRecord.exitProofs, hbefore, hhistory, hafter]
  · have hhistory : current.workerTerminationHistory = updated.workerTerminationHistory :=
      henvelope.history.eq_of_length_le (hexact.history.resolve_right harchived)
    cases hbefore : current.exitProof with
    | some before =>
      left
      have hafter := exitProof_stays henvelope hexact harchived hbefore
      simp [LifecycleOperationRecord.exitProofs, hhistory, hbefore, hafter]
    | none =>
      cases hafter : updated.exitProof with
      | none => left; simp [LifecycleOperationRecord.exitProofs, hhistory, hbefore, hafter]
      | some after =>
        right
        exact ⟨after, rfl, by simp [LifecycleOperationRecord.exitProofs, hhistory, hbefore, hafter]⟩

end step

/-! ## Runs -/

section runs
variable {store : LifecycleOperationStore}

theorem exactWorker_of_advanced {current transformed updated : LifecycleOperationRecord}
    (h : Advanced current transformed updated) (hexact : ExactWorker current transformed) :
    ExactWorker current updated := by
  obtain ⟨-, -, rfl⟩ := h
  exact ⟨hexact.keeps, hexact.namesLive, hexact.namesExited, hexact.proof, hexact.history⟩

theorem worker_step {current updated : LifecycleOperationRecord} {w : WriteCall}
    (hstored : store.Stored current) (hnames : NamesWorker current)
    (h : store.Accepted current w updated) (hwrites : WritesExactWorker current w) :
    WorkerStep current updated ∧ NamesWorker updated := by
  obtain ⟨transformed, htransform, hadvanced⟩ := h.advanced
  have hexact := exactWorker_of_advanced hadvanced (hwrites transformed htransform)
  have hvalid := workerValid_of_valid (valid_of_stored hstored)
  have hvalid' := workerValid_of_valid (valid_of_stored h.stored)
  have henvelope := workerEnvelope_ok (envelope_ok h.envelope).worker
  exact ⟨⟨released_step hvalid hvalid' henvelope hexact hnames, retained_step henvelope hexact⟩,
    namesWorker_step hvalid hvalid' henvelope hexact hnames⟩

/-- One worker authority at a time, in every run whose writes are exact about it. -/
theorem one_worker_authority (store : LifecycleOperationStore) (r s : LifecycleOperationRecord)
    (ls : List WriteCall) (hr : store.Stored r) (hnames : NamesWorker r)
    (hrun : Runs.run store.write r ls = some s)
    (hwrites : Runs.Along store.write (fun current w _ => WritesExactWorker current w) r ls) :
    Runs.Along store.write (fun current _ updated => WorkerStep current updated) r ls ∧
      r.exitProofs <+: s.exitProofs := by
  let I (record : LifecycleOperationRecord) : Prop :=
    (store.Stored record ∧ NamesWorker record) ∧ r.exitProofs <+: record.exitProofs
  have keep : ∀ current w updated, I current → store.write current w = some updated →
      WritesExactWorker current w → I updated := by
    intro current w updated hi hw hexact
    have haccepted := write_accepted hw
    obtain ⟨hstep, hnamed⟩ := worker_step hi.1.1 hi.1.2 haccepted hexact
    refine ⟨⟨haccepted.stored, hnamed⟩, ?_⟩
    obtain hsame | ⟨termination, -, hmore⟩ := hstep.retained
    · rw [hsame]; exact hi.2
    · rw [hmore]; exact hi.2.trans (List.prefix_append _ _)
  have hstart : I r := ⟨⟨hr, hnames⟩, List.prefix_rfl⟩
  refine ⟨?_, (hwrites.invariant keep hstart hrun).2⟩
  apply Runs.along_of_forall
  intro pre w post hls current updated hpre hw
  rw [hls] at hwrites
  obtain ⟨hbefore, hrest⟩ := hwrites.append hpre
  have hi := hbefore.invariant keep hstart hpre
  exact (worker_step hi.1.1 hi.1.2 (write_accepted hw) (hrest updated hw).1).1

end runs

/-! ## Bindings the store lets go -/

/-- An exit proof of a worker. -/
def exitOf (pid : Nat) (lease fingerprint : String) : WorkerTerminationEvidence where
  state := .exited
  pid := pid
  lease := lease
  processFingerprint := fingerprint
  requestedAt := "2026-08-24T00:01:00+00:00"
  signal := "none"
  observedAt := some "2026-08-24T00:02:00+00:00"
  exitHasObservation := by decide

/-- Release the worker with the given proof of its exit. -/
def releaseWorker (termination : WorkerTerminationEvidence) : WriteCall :=
  .update fun record => .ok
    { record with
      workerPid := none
      workerLease := none
      workerProcessFingerprint := none
      workerTermination := some termination }

/-- A write that binds another process. -/
def rebindWorker (pid : Nat) : WriteCall :=
  .update fun record => .ok { record with workerPid := some pid }

theorem one_worker_authority_released :
    ∃ s, Runs.run integrateStore.write completedIntegration
        [releaseWorker (exitOf 4711 "l1" "p1")] = some s ∧
      (Runs.Along integrateStore.write (fun current _ updated => WorkerStep current updated)
          completedIntegration [releaseWorker (exitOf 4711 "l1" "p1")] ∧
        completedIntegration.exitProofs <+: s.exitProofs) := by
  have hrun : ((Runs.run integrateStore.write completedIntegration
      [releaseWorker (exitOf 4711 "l1" "p1")]).map fun s => s.status) = some .completed := by
    decide +kernel
  obtain ⟨s, hs, -⟩ := Option.map_eq_some_iff.mp hrun
  refine ⟨s, hs, one_worker_authority integrateStore completedIntegration s _
    (by decide +kernel) (fun _ h => nomatch h) hs ?_⟩
  intro updated _
  refine ⟨?_, trivial⟩
  intro transformed ht
  cases ht
  exact ⟨fun _ h => (nomatch h), fun _ _ h hlive => by cases h; exact absurd rfl hlive,
    fun _ _ h _ _ => by cases h; rfl, fun _ _ h => (nomatch h), .inl le_rfl⟩

/-- The store lets another process take over under the same lease, and lets a
worker go with the exit proof of another process. -/
theorem worker_replaced_without_proof : integrateStore.Stored completedIntegration ∧
    (∃ s, integrateStore.write completedIntegration (rebindWorker 4712) = some s ∧
      s.binding ≠ completedIntegration.binding ∧ s.binding ≠ unbound ∧ s.exitProofs = []) ∧
    (∃ s, integrateStore.write completedIntegration (releaseWorker (exitOf 9 "l9" "p9")) = some s ∧
      s.binding = unbound ∧ ∀ termination ∈ s.exitProofs,
        termination.binding ≠ completedIntegration.binding) := by
  have hrebind : ((integrateStore.write completedIntegration (rebindWorker 4712)).map fun s =>
      decide (s.binding ≠ completedIntegration.binding ∧ s.binding ≠ unbound ∧
        s.exitProofs = [])) = some true := by
    decide +kernel
  have hrelease : ((integrateStore.write completedIntegration
      (releaseWorker (exitOf 9 "l9" "p9"))).map fun s =>
      decide (s.binding = unbound ∧ ∀ termination ∈ s.exitProofs,
        termination.binding ≠ completedIntegration.binding)) = some true := by
    decide +kernel
  obtain ⟨s, hs, hp⟩ := Option.map_eq_some_iff.mp hrebind
  obtain ⟨u, hu, hq⟩ := Option.map_eq_some_iff.mp hrelease
  exact ⟨by decide +kernel, ⟨s, hs, of_decide_eq_true hp⟩, u, hu, of_decide_eq_true hq⟩

end AgentsRemember.Lifecycle
