import AgentsRemember.Gates.Rearm

/-!
# Gates — Wait

`gate_response_wait` (`application/gate_tools.py`): a poll reads the gate,
answers when it is decided or when an inbox entry came, and removes a decided
gate whose kind no mutating tool consumes. The removal comes after the read
and takes the gate out of the log as the log is by then.
-/

namespace AgentsRemember.Gates

/-! ## One poll -/

/-- What a poll answers. -/
structure WaitAnswer where
  gateId : String
  state : GateState
  timedOut : Bool
  entryCount : Nat

/-- What one poll says: the gate is gone, an answer, or go on polling. -/
inductive Poll where
  | cancelled
  | answered (answer : WaitAnswer) (gate : GateRecord)
  | pending

/-- One turn of the loop, with the pending inbox entries for the gate and
whether the deadline has passed. -/
def gateResponsePoll (log : List GateRecord) (gateId : String) (entryCount : Nat)
    (deadlinePassed : Bool) : Poll :=
  match (current log).lookup gateId with
  | none => .cancelled
  | some gate =>
    if gate.state ≠ .opened ∨ entryCount ≠ 0 then
      .answered { gateId := gate.id, state := gate.state, timedOut := false
                  entryCount := entryCount } gate
    else if deadlinePassed then
      .answered { gateId := gate.id, state := gate.state, timedOut := true
                  entryCount := 0 } gate
    else .pending

/-- The log after the answer: the gate that was read decided is removed when
its kind says so. -/
def afterAnswer (log : List GateRecord) (gate : GateRecord) : List GateRecord :=
  if gate.state ≠ .opened ∧ deleteAfterWait gate = true then delete log gate.id else log

/-- A poll answers with the gate as it read it. -/
theorem gateResponsePoll_gate {log : List GateRecord} {gateId : String} {entryCount : Nat}
    {deadlinePassed : Bool} {answer : WaitAnswer} {gate : GateRecord}
    (h : gateResponsePoll log gateId entryCount deadlinePassed = .answered answer gate) :
    (current log).lookup gateId = some gate ∧ answer.state = gate.state := by
  unfold gateResponsePoll at h
  split at h
  · cases h
  · rename_i g hg
    split at h
    · cases h
      exact ⟨hg, rfl⟩
    · split at h
      · cases h
        exact ⟨hg, rfl⟩
      · cases h

/-! ## What the removal does -/

/-- The removal opens nothing for the operation and loses no approval. -/
def WaitSafe (kind : GateKind) (policy : GatePolicy) (operationKey : Option String)
    (log : List GateRecord) (gate : GateRecord) : Prop :=
  (permitted kind policy operationKey log = false →
    permitted kind policy operationKey (afterAnswer log gate) = false) ∧
  (∀ r, (current log).lookup gate.id = some r → r.state = .approved →
    (current (afterAnswer log gate)).lookup gate.id = some r)

/-- Of the consumed kinds only the seam's is removed after a wait. -/
theorem deleteAfterWait_iff {gate : GateRecord}
    (h : gate.kind ∈ consumedApprovalGateKinds) :
    deleteAfterWait gate = true ↔ gate.kind = .masterHandoverApproval := by
  unfold deleteAfterWait
  revert h
  cases gate.kind <;> decide

theorem permitted_delete (kind : GateKind) (policy : GatePolicy)
    (operationKey : Option String) (log : List GateRecord) (id : String) :
    permitted kind policy operationKey (delete log id)
      = permits policy operationKey (rival (current log) id kind) := by
  rw [permitted, evaluateGate_permitted, current_delete]
  rfl

/-- **Waiting opens no mutation exactly when** the gate is not the seam's, or
its latest snapshot is no approval and the other gates of the asked kind do
not permit what this log refuses. For every log at the moment of the removal
and every gate of a consumed kind that was read decided. -/
theorem wait_safe_iff (log : List GateRecord) (gate : GateRecord)
    (hdecided : gate.state ≠ .opened) (hk : gate.kind ∈ consumedApprovalGateKinds)
    (kind : GateKind) (policy : GatePolicy) (operationKey : Option String) :
    WaitSafe kind policy operationKey log gate ↔
      gate.kind ≠ .masterHandoverApproval ∨
      ((∀ r, (current log).lookup gate.id = some r → r.state ≠ .approved) ∧
        (permitted kind policy operationKey log = true ∨
          permits policy operationKey (rival (current log) gate.id kind) = false)) := by
  by_cases hseam : gate.kind = .masterHandoverApproval
  · have hafter : afterAnswer log gate = delete log gate.id :=
      if_pos ⟨hdecided, (deleteAfterWait_iff hk).mpr hseam⟩
    have hgone : (current (delete log gate.id)).lookup gate.id = none := by
      rw [lookup_current_delete, if_pos rfl]
    rw [WaitSafe, hafter, permitted_delete, hgone]
    constructor
    · intro ⟨hverdict, happroval⟩
      right
      constructor
      · intro r hr hs
        cases happroval r hr hs
      · cases hp : permitted kind policy operationKey log with
        | true => exact .inl rfl
        | false => exact .inr (hverdict hp)
    · intro hcond
      obtain ⟨happroval, hverdict⟩ := hcond.resolve_left (fun h => h hseam)
      constructor
      · intro hp
        rcases hverdict with ht | hf
        · rw [hp] at ht
          cases ht
        · exact hf
      · intro r hr hs
        exact absurd hs (happroval r hr)
  · have hafter : afterAnswer log gate = log :=
      if_neg (fun h => hseam ((deleteAfterWait_iff hk).mp h.2))
    rw [WaitSafe, hafter]
    exact ⟨fun _ => .inl hseam, fun _ => ⟨id, fun r hr _ => hr⟩⟩

/-! A closeout gate stays after the wait; a handover gate does not. -/

/-- A rejected gate. -/
def rejectedGate (kind : GateKind) : GateRecord :=
  { id := "g1", ts := "2026-01-01T00:01:00+00:00", kind := kind, state := .rejected
    decidedBy := some "developer", decidedVia := some .dashboard }

theorem closeout_wait_safe :
    WaitSafe .closeoutApproval {} none [rejectedGate .closeoutApproval]
      (rejectedGate .closeoutApproval) :=
  (wait_safe_iff _ _ (by decide) (by decide) _ _ _).mpr (.inl (by decide))

/-- A rejection read by the waiting manager is gone from the log;
and so is an approval that nothing has spent. -/
theorem handover_wait_opens :
    permitted .masterHandoverApproval {} none [rejectedGate .masterHandoverApproval] = false ∧
    permitted .masterHandoverApproval {} none (afterAnswer
      [rejectedGate .masterHandoverApproval] (rejectedGate .masterHandoverApproval)) = true ∧
    afterAnswer [{ rejectedGate .masterHandoverApproval with state := .approved }]
      { rejectedGate .masterHandoverApproval with state := .approved } = [] := by
  refine ⟨by decide, by decide, ?_⟩
  rfl

end AgentsRemember.Gates
