import AgentsRemember.Gates.Spend

/-!
# Gates — Rearm

What a decision does that lands on a gate that is closed by then: applied,
rejected, expired or cancelled. `record_gate_decision` looks at the gate's
state nowhere, so the snapshot stands, and the verdict on the kind is that of
the snapshot if it leads its kind, and else that of the other gates.
-/

namespace AgentsRemember.Gates

open Runs (run Along)

/-- The states in which a gate is closed. -/
def closedGateStates : List GateState := [.applied, .rejected, .expired, .cancelled]

/-- The verdict of a log for one operation. -/
def permitted (kind : GateKind) (policy : GatePolicy) (operationKey : Option String)
    (log : List GateRecord) : Bool :=
  (evaluateGate (current log) kind policy operationKey).permitted

/-- The step appends a decision on a gate whose latest snapshot is closed. -/
def LandsOnClosed (s : State) (l : Step) (decision : Decision) (snapshot : GateRecord) :
    Prop :=
  ∃ i client policy verdict now refs, l = .land i ∧ s.inFlight[i]? = some client ∧
    client.edit = .decide decision policy verdict now refs ∧ client.snapshot = snapshot ∧
    ∃ r, (current s.log).lookup snapshot.id = some r ∧ r.state ∈ closedGateStates

/-- What is claimed of one step: no refused operation becomes permitted. -/
def KeepsRefusal (kind : GateKind) (policy : GatePolicy) (operationKey : Option String)
    (s : State) (l : Step) (s' : State) : Prop :=
  ∀ decision snapshot, LandsOnClosed s l decision snapshot →
    permitted kind policy operationKey s.log = false →
    permitted kind policy operationKey s'.log = false

/-- The decision re-arms its kind: it is a policy-valid approval that becomes
the newest of the kind, or it takes a refusing gate away, by a cancel or by a
snapshot that is not the newest, and the other gates permit. -/
def Rearms (kind : GateKind) (policy : GatePolicy) (operationKey : Option String)
    (log : List GateRecord) (decision : Decision) (snapshot : GateRecord) : Prop :=
  permitted kind policy operationKey log = false ∧
    if decision ≠ .cancel ∧ snapshot.kind = kind ∧ Leads (current log) snapshot then
      decision = .approve ∧ approvalFailureReason snapshot policy = none
    else permits policy operationKey (rival (current log) snapshot.id kind) = true

/-- No decision of the step re-arms. -/
def NeverRearms (kind : GateKind) (policy : GatePolicy) (operationKey : Option String)
    (s : State) (l : Step) (_ : State) : Prop :=
  ∀ decision snapshot, LandsOnClosed s l decision snapshot →
    ¬Rearms kind policy operationKey s.log decision snapshot

/-! ## One decision -/

theorem current_cancelled (log : List GateRecord) (snapshot : GateRecord) :
    current (delete (log ++ [snapshot]) snapshot.id)
      = Keyed.erase (current log) snapshot.id := by
  rw [current_delete, current_append]
  have h := Keyed.filter_set (fun id => decide (id ≠ snapshot.id)) (current log)
    snapshot.id snapshot
  simpa [Keyed.erase] using h

/-- Who governs after a decision lands. -/
theorem governing_landDecision (log : List GateRecord) (decision : Decision)
    (snapshot : GateRecord) (kind : GateKind) :
    governing (current (landDecision log decision snapshot)) kind =
      if decision ≠ .cancel ∧ snapshot.kind = kind ∧ Leads (current log) snapshot then
        some snapshot
      else rival (current log) snapshot.id kind := by
  unfold landDecision
  by_cases hd : decision = .cancel
  · rw [if_pos hd, if_neg (fun h => h.1 hd), current_cancelled]
    rfl
  · rw [if_neg hd, current_append, governing_set (nodup_current log)]
    by_cases hl : snapshot.kind = kind ∧ Leads (current log) snapshot
    · rw [if_pos hl, if_pos ⟨hd, hl⟩]
    · rw [if_neg hl, if_neg (fun h => hl h.2)]

/-- A decided snapshot grants when it is a policy-valid approval. -/
theorem grants_decided {snapshot : GateRecord} {decision : Decision}
    (h : snapshot.state = decision.state) (policy : GatePolicy)
    (operationKey : Option String) :
    grants policy operationKey snapshot = true ↔
      decision = .approve ∧ approvalFailureReason snapshot policy = none := by
  cases decision <;> simp [grants, h, Decision.state]

theorem LandsOnClosed.state {s : State} {l : Step} {decision : Decision}
    {snapshot : GateRecord} (h : LandsOnClosed s l decision snapshot) :
    snapshot.state = decision.state := by
  obtain ⟨i, client, policy, verdict, now, refs, -, -, he, rfl, -⟩ := h
  rcases client.snapshot_cases with ⟨d, p, v, n, r, he', hs⟩ | ⟨n, he', -⟩ | ⟨n, he', -⟩
  · rw [he] at he'
    cases he'
    rw [hs, decideGate_state]
  · rw [he] at he'
    cases he'
  · rw [he] at he'
    cases he'

theorem LandsOnClosed.log {s s' : State} {l : Step} {decision : Decision}
    {snapshot : GateRecord} (h : LandsOnClosed s l decision snapshot)
    (hs : step s l = some s') : s'.log = landDecision s.log decision snapshot := by
  obtain ⟨i, client, policy, verdict, now, refs, rfl, hc, he, rfl, -⟩ := h
  simp only [step, hc, Option.map_some, Option.some.injEq] at hs
  rw [← hs]
  simp only [InFlight.land, he]

/-- Whether one decision re-arms can be said before it lands. -/
theorem rearms_iff {s s' : State} {l : Step} {decision : Decision} {snapshot : GateRecord}
    (h : LandsOnClosed s l decision snapshot) (hs : step s l = some s') (kind : GateKind)
    (policy : GatePolicy) (operationKey : Option String) :
    Rearms kind policy operationKey s.log decision snapshot ↔
      permitted kind policy operationKey s.log = false ∧
        permitted kind policy operationKey s'.log = true := by
  have hafter : permitted kind policy operationKey s'.log = true ↔
      if decision ≠ .cancel ∧ snapshot.kind = kind ∧ Leads (current s.log) snapshot then
        decision = .approve ∧ approvalFailureReason snapshot policy = none
      else permits policy operationKey (rival (current s.log) snapshot.id kind) = true := by
    rw [permitted, evaluateGate_permitted, h.log hs, governing_landDecision]
    by_cases hl : decision ≠ .cancel ∧ snapshot.kind = kind ∧ Leads (current s.log) snapshot
    · rw [if_pos hl, if_pos hl]
      exact grants_decided h.state policy operationKey
    · rw [if_neg hl, if_neg hl]
  rw [Rearms, hafter]

theorem keepsRefusal_iff {s s' : State} {l : Step} (hs : step s l = some s')
    (kind : GateKind) (policy : GatePolicy) (operationKey : Option String) :
    NeverRearms kind policy operationKey s l s' ↔
      KeepsRefusal kind policy operationKey s l s' := by
  constructor
  · intro h decision snapshot hlands hbefore
    have hno := h decision snapshot hlands
    rw [rearms_iff hlands hs] at hno
    cases hafter : permitted kind policy operationKey s'.log with
    | false => rfl
    | true => exact absurd ⟨hbefore, hafter⟩ hno
  · intro h decision snapshot hlands hre
    rw [rearms_iff hlands hs] at hre
    have := h decision snapshot hlands hre.1
    rw [hre.2] at this
    cases this

/-! ## Runs -/

/-- **A closed gate is re-armed exactly when a decision re-arms it.** In every
run, every interleaving of reads, landings, claims, openings, removals and
compactions from any log, recording decisions on closed gates keeps each
refused operation refused if and only if none of these decisions, as it
lands, re-arms. -/
theorem closed_stays_refused_iff (kind : GateKind) (policy : GatePolicy)
    (operationKey : Option String) (s₀ : State) (ls : List Step) :
    Along step (KeepsRefusal kind policy operationKey) s₀ ls ↔
      Along step (NeverRearms kind policy operationKey) s₀ ls := by
  symm
  apply Runs.along_iff_along (I := fun _ => True)
  · intro _ _ _ _ _ _
    trivial
  · intro s l s' _ hs
    exact keepsRefusal_iff hs kind policy operationKey
  · trivial

/-! The developer approves twice, from two surfaces; the second decision was
read before the first was spent, and lands behind it. -/

/-- An approval that lands late. -/
def lateApproval : Edit :=
  .decide .approve {} { decision := "approve", via := .chat, by_ := some "developer" }
    "2026-01-01T00:03:00+00:00" []

/-- A late approval is read, and the gate approved and spent meanwhile. -/
def lateRun : List Step := [.read "g1" lateApproval] ++
  [.read "g1" developerApproves, .land 1,
    .claim .closeoutApproval "2026-01-01T00:02:00+00:00" {} (some "op-1")]

/-- The spent approval permits a second operation. -/
theorem spent_approval_rearmed :
    (run step { log := [closeoutGate] } lateRun).map (fun s =>
        (((current s.log).lookup "g1").map (·.state),
          permitted .closeoutApproval {} (some "op-2") s.log))
      = some (some .applied, false) ∧
    (run step { log := [closeoutGate] } (lateRun ++ [.land 0])).map (fun s =>
        (((current s.log).lookup "g1").map (·.state),
          permitted .closeoutApproval {} (some "op-2") s.log))
      = some (some .approved, true) := by
  decide

end AgentsRemember.Gates
