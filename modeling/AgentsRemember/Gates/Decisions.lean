import AgentsRemember.Foundation.Runs
import AgentsRemember.Gates.Log

/-!
# Gates — Decisions

Recording a decision (`controlplane/gate_decisions.py`): the target is read,
the verdict is checked against what was read, and the snapshot made of it is
appended; a cancel removes the gate behind its snapshot. Nothing is locked
between the read and the append.

The concurrent system is the log and what its clients hold in their hands
between a read and a write: `State` and `step`. A claim is one step, for it
runs under the lock.
-/

namespace AgentsRemember.Gates

/-! ## One decision -/

/-- A delegated gate is not decided from the command line. -/
def requireUndelegatedCliDecision (gate : GateRecord) (policy : GatePolicy) :
    Except String Unit :=
  if (policy.ruleFor gate.kind).delegatedRole ≠ none then
    .error (gate.kind.wire
      ++ " is delegated by the active gate policy; pass deciding_role "
      ++ "for an attributed orchestration decision, or leave it to the developer")
  else .ok ()

/-- The snapshot a decision appends, from the gate it read, or the error it
raises. -/
def decisionSnapshot (policy : GatePolicy) (gate : GateRecord) (decision : Decision)
    (verdict : GateVerdict) (now : String) (evidenceRefs : List GateEvidenceRef) :
    Except String GateRecord := do
  if verdict.via = .cli ∧ decision ≠ .cancel then requireUndelegatedCliDecision gate policy
  let updated := decideGate gate decision verdict now evidenceRefs
  if verdict.via = .orchestration then
    match ← delegatedDecisionFailureReason updated policy with
    | some failure => .error ("gate decision rejected by delegation policy: " ++ failure)
    | none => .ok updated
  else .ok updated

/-- The append of a decision; a cancelled gate is removed behind it. -/
def landDecision (log : List GateRecord) (decision : Decision) (updated : GateRecord) :
    List GateRecord :=
  if decision = .cancel then delete (log ++ [updated]) updated.id else log ++ [updated]

/-- `record_gate_decision` with nothing in between, on the log that has the
gate: the log it leaves. The owner of compaction reclaims the log at the end. -/
def recordGateDecision (log : List GateRecord) (lifecycleId : Option String)
    (policy : GatePolicy) (gateId : String) (verdict : GateVerdict) (now : String)
    (evidenceRefs : List GateEvidenceRef) (reclaim : Option (String → Option Int)) : Except String (List GateRecord) := do
  let decision ← match decisionOf verdict.decision with
    | some decision => .ok decision
    | none => .error ("unknown gate decision " ++ quoted verdict.decision
        ++ "; expected one of ['approve', 'cancel', 'reject', 'request-revision']")
  let gate ← match (current log).lookup gateId with
    | some gate => .ok gate
    | none => .error ("no gate " ++ quoted gateId ++ " on lifecycle "
        ++ quotedOption lifecycleId)
  let updated ← decisionSnapshot policy gate decision verdict now evidenceRefs
  let landed := landDecision log decision updated
  .ok (match reclaim with
    | none => landed
    | some age => compact age landed)

/-- The gates that are open. -/
def openGates (log : List GateRecord) : List GateRecord :=
  ((current log).map Prod.snd).filter (·.state = .opened)

/-- `record_lifecycle_gate_decision`: the newest open gate is the target. -/
def recordLifecycleGateDecision (log : List GateRecord) (lifecycleId : String)
    (policy : GatePolicy) (expectedGateId : Option String) (verdict : GateVerdict)
    (now : String) (evidenceRefs : List GateEvidenceRef) (reclaim : Option (String → Option Int)) :
    Except String (List GateRecord) :=
  match (openGates log).argmax (·.ts) with
  | none => .error ("no open gate on lifecycle " ++ quoted lifecycleId)
  | some gate =>
    if expectedGateId ≠ none ∧ expectedGateId ≠ some gate.id then
      .error ("gate " ++ quotedOption expectedGateId ++ " is "
        ++ (((expectedGateId.bind fun id => (current log).lookup id).map
            (·.state.wire)).getD "missing")
        ++ "; current open gate is " ++ quoted gate.id)
    else
      recordGateDecision log (some lifecycleId) policy gate.id verdict now evidenceRefs reclaim

theorem decisionSnapshot_eq {policy : GatePolicy} {gate updated : GateRecord}
    {decision : Decision} {verdict : GateVerdict} {now : String}
    {refs : List GateEvidenceRef}
    (h : decisionSnapshot policy gate decision verdict now refs = .ok updated) :
    updated = decideGate gate decision verdict now refs := by
  have hrest : ∀ u : GateRecord, (if verdict.via = .orchestration then do
      match ← delegatedDecisionFailureReason u policy with
      | some failure =>
        Except.error ("gate decision rejected by delegation policy: " ++ failure)
      | none => Except.ok u
      else Except.ok u) = Except.ok updated → updated = u := by
    intro u hu
    split at hu
    · cases hf : delegatedDecisionFailureReason u policy with
      | error e => rw [hf] at hu; cases hu
      | ok failure =>
        rw [hf] at hu
        cases failure with
        | none => cases hu; rfl
        | some reason => cases hu
    · cases hu
      rfl
  unfold decisionSnapshot at h
  dsimp only at h
  split at h
  · cases hc : requireUndelegatedCliDecision gate policy with
    | error e => rw [hc] at h; cases h
    | ok u => rw [hc] at h; exact hrest _ h
  · exact hrest _ h

/-! ## The concurrent system -/

/-- What a client does with a gate it has read. Only open gates are expired,
only decided ones reopened. -/
inductive Edit where
  | decide (decision : Decision) (policy : GatePolicy) (verdict : GateVerdict) (now : String)
      (refs : List GateEvidenceRef)
  | expire (now : String)
  | reopen (now : String)

/-- The snapshot the client will append, if it goes on. -/
def Edit.snapshot (edit : Edit) (gate : GateRecord) : Option GateRecord :=
  match edit with
  | .decide decision policy verdict now refs =>
    (decisionSnapshot policy gate decision verdict now refs).toOption
  | .expire now => if gate.state = .opened then some (expireGate gate now) else none
  | .reopen now =>
    if gate.state = .opened ∨ gate.state = .applied ∨ gate.state = .expired then none
    else some (reopenGate gate now)

/-- A client between its read and its write. -/
structure InFlight where
  gate : GateRecord
  edit : Edit
  snapshot : GateRecord
  made : edit.snapshot gate = some snapshot

/-- The log, and what the clients hold in their hands. -/
structure State where
  log : List GateRecord
  inFlight : List InFlight := []

/-- What a client does, or the claim of a tool. -/
inductive Step where
  | openGate (kind : GateKind) (gateId now : String) (anchor : GateAnchor)
      (request : GateRequest)
  | read (gateId : String) (edit : Edit)
  | land (i : Nat)
  | claim (kind : GateKind) (now : String) (policy : GatePolicy)
      (operationKey : Option String)
  | delete (gateId : String)
  | compact (age : String → Option Int)

/-- The log after a client's write. -/
def InFlight.land (client : InFlight) (log : List GateRecord) : List GateRecord :=
  match client.edit with
  | .decide decision _ _ _ _ => landDecision log decision client.snapshot
  | _ => log ++ [client.snapshot]

/-- What a read puts into the client's hands. -/
def startEdit (gate : GateRecord) (edit : Edit) : Option InFlight :=
  if h : (edit.snapshot gate).isSome then
    some ⟨gate, edit, (edit.snapshot gate).get h, (Option.some_get h).symm⟩
  else none

/-- One step; none where nobody holds what lands. -/
def step (s : State) : Step → Option State
  | .openGate kind gateId now anchor request =>
    some { s with log := s.log ++ [createGate kind gateId now anchor request] }
  | .read gateId edit =>
    ((current s.log).lookup gateId).bind fun gate =>
      (startEdit gate edit).map fun client =>
        { s with inFlight := s.inFlight ++ [client] }
  | .land i =>
    (s.inFlight[i]?).map fun client =>
      { log := client.land s.log, inFlight := s.inFlight.eraseIdx i }
  | .claim kind now policy operationKey =>
    some { s with log := (claimApproval s.log kind now policy operationKey).2 }
  | .delete gateId => some { s with log := delete s.log gateId }
  | .compact age => some { s with log := compact age s.log }

/-! ## What a client holds -/

/-- The one way a client writes an approval is a decision to approve. -/
def InFlight.Approves (client : InFlight) (id : String) : Prop :=
  client.snapshot.id = id ∧ ∃ policy verdict now refs,
    client.edit = .decide .approve policy verdict now refs

/-- What a client's snapshot is, by what it does with the gate it read. -/
theorem InFlight.snapshot_cases (client : InFlight) :
    (∃ decision policy verdict now refs,
      client.edit = .decide decision policy verdict now refs ∧
      client.snapshot = decideGate client.gate decision verdict now refs) ∨
    (∃ now, client.edit = .expire now ∧ client.snapshot = expireGate client.gate now) ∨
    (∃ now, client.edit = .reopen now ∧ client.snapshot = reopenGate client.gate now) := by
  obtain ⟨gate, edit, snapshot, made⟩ := client
  cases edit with
  | decide decision policy verdict now refs =>
    left
    refine ⟨decision, policy, verdict, now, refs, rfl, ?_⟩
    simp only [Edit.snapshot] at made
    cases hd : decisionSnapshot policy gate decision verdict now refs with
    | error e => rw [hd] at made; cases made
    | ok u =>
      rw [hd] at made
      cases made
      exact decisionSnapshot_eq hd
  | expire now =>
    right; left
    simp only [Edit.snapshot] at made
    split at made
    · cases made
      exact ⟨now, rfl, rfl⟩
    · cases made
  | reopen now =>
    right; right
    simp only [Edit.snapshot] at made
    split at made
    · cases made
    · cases made
      exact ⟨now, rfl, rfl⟩

/-- No client writes an applied snapshot. -/
theorem InFlight.snapshot_not_applied (client : InFlight) :
    client.snapshot.state ≠ .applied := by
  obtain ⟨d, p, v, n, r, -, hs⟩ | ⟨n, -, hs⟩ | ⟨n, -, hs⟩ := client.snapshot_cases
  · rw [hs]
    exact d.state_ne.2.1
  · simp [hs]
  · simp [hs]

/-- And an approved one only by approving. -/
theorem InFlight.approves_of_approved {client : InFlight}
    (h : client.snapshot.state = .approved) : client.Approves client.snapshot.id := by
  obtain ⟨d, p, v, n, r, he, hs⟩ | ⟨n, -, hs⟩ | ⟨n, -, hs⟩ := client.snapshot_cases
  · rw [hs, decideGate_state] at h
    cases d <;> first | exact ⟨rfl, p, v, n, r, he⟩ | cases h
  · rw [hs] at h
    cases h
  · rw [hs] at h
    cases h

/-- What the log of a gate is after a client's write: the snapshot, or
nothing behind a cancel; other gates stay. -/
theorem InFlight.lookup_land (client : InFlight) (log : List GateRecord) (id : String) :
    (current (client.land log)).lookup id = some client.snapshot ∧ client.snapshot.id = id ∨
    (current (client.land log)).lookup id = none ∧ client.snapshot.id = id ∨
    (current (client.land log)).lookup id = (current log).lookup id
      ∧ client.snapshot.id ≠ id := by
  have happend : ∀ id', (current (log ++ [client.snapshot])).lookup id' =
      if client.snapshot.id = id' then some client.snapshot else (current log).lookup id' :=
    lookup_current_append log client.snapshot
  by_cases hid : client.snapshot.id = id
  · unfold land landDecision
    split
    · split
      · right; left
        refine ⟨?_, hid⟩
        rw [lookup_current_delete, if_pos hid.symm]
      · left
        exact ⟨by rw [happend, if_pos hid], hid⟩
    · left
      exact ⟨by rw [happend, if_pos hid], hid⟩
  · right; right
    refine ⟨?_, hid⟩
    unfold land landDecision
    split
    · split
      · rw [lookup_current_delete, if_neg (Ne.symm hid), happend, if_neg hid]
      · rw [happend, if_neg hid]
    · rw [happend, if_neg hid]

end AgentsRemember.Gates
