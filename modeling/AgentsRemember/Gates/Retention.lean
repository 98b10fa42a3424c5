import AgentsRemember.Gates.Decisions

/-!
# Gates — Retention

What compaction does to the verdict. It keeps the snapshots of a gate
together or drops them together, and drops a gate by the state of its latest
snapshot. A gate that governs and is kept governs on; one that is dropped
leaves its kind to an older gate or to none.
-/

namespace AgentsRemember.Gates

open Runs (run)

/-- Compaction leaves the verdict on a kind and the gate it names. -/
def SameVerdict (kind : GateKind) (policy : GatePolicy) (operationKey : Option String)
    (log log' : List GateRecord) : Prop :=
  (evaluateGate (current log') kind policy operationKey).permitted
      = (evaluateGate (current log) kind policy operationKey).permitted ∧
    (evaluateGate (current log') kind policy operationKey).gateId
      = (evaluateGate (current log) kind policy operationKey).gateId

/-- No live gate that only its age could remove is past its retention. -/
def WithinRetention (age : String → Option Int) (log : List GateRecord) : Prop :=
  ∀ e ∈ current log, e.2.state ≠ .applied → e.2.state ∉ pruneImmediateGateStates →
    keepGate age e.2 = true

/-- A gate of a consumed kind is kept unless it was withdrawn or replaced. -/
theorem keepGate_iff {age : String → Option Int} {log : List GateRecord}
    (hage : WithinRetention age log) {e : String × GateRecord} (he : e ∈ current log)
    (hk : e.2.kind ∈ consumedApprovalGateKinds) :
    keepGate age e.2 = true ↔ e.2.state ∉ pruneImmediateGateStates := by
  by_cases ha : e.2.state = .applied
  · have hkeep : keepGate age e.2 = true := by
      rw [keepGate, if_pos ha]
      exact List.contains_iff_mem.mpr hk
    have hnot : e.2.state ∉ pruneImmediateGateStates := by
      rw [ha]
      decide
    exact ⟨fun _ => hnot, fun _ => hkeep⟩
  · constructor
    · intro hkeep hmem
      rw [keepGate, if_neg ha, if_pos (List.contains_iff_mem.mpr hmem)] at hkeep
      cases hkeep
    · exact hage e he ha

/-- **Compaction preserves the verdict exactly when the governing gate is
neither cancelled nor expired.** For every log, every moment at which no live
gate is past its retention and every consumed kind. -/
theorem compact_preserves_verdict_iff (age : String → Option Int) (log : List GateRecord)
    (hage : WithinRetention age log) (kind : GateKind)
    (hk : kind ∈ consumedApprovalGateKinds) (policy : GatePolicy)
    (operationKey : Option String) :
    SameVerdict kind policy operationKey log (compact age log) ↔
      ∀ gate, governing (current log) kind = some gate →
        gate.state ∉ pruneImmediateGateStates := by
  have hid : ∀ e ∈ current log, e.2.id = e.1 := fun _ he => id_of_mem_current he
  unfold SameVerdict
  simp only [evaluateGate_permitted, evaluateGate_gateId, current_compact]
  cases hg : governing (current log) kind with
  | none =>
    rw [governing_filter_none (p := fun id => (gateKeepIds age log).contains id) hid hg]
    simp
  | some gate =>
    obtain ⟨⟨id, hm⟩, hkind⟩ := governing_mem hg
    have hgid : gate.id = id := hid _ hm
    have hkeep : (gateKeepIds age log).contains gate.id = true ↔
        gate.state ∉ pruneImmediateGateStates := by
      rw [hgid]
      have h : (gateKeepIds age log).contains id = keepGate age gate :=
        contains_gateKeepIds hm
      rw [h]
      exact keepGate_iff hage hm (by simpa [hkind] using hk)
    constructor
    · intro ⟨_, hsame⟩ gate' hgate'
      cases hgate'
      apply hkeep.mp
      cases hafter : governing ((current log).filter
          (fun e => (gateKeepIds age log).contains e.1)) kind with
      | none =>
        rw [hafter] at hsame
        cases hsame
      | some gate' =>
        rw [hafter] at hsame
        have heq : gate'.id = gate.id := Option.some.inj hsame
        rw [← heq]
        exact governing_filter_pass (p := fun id => (gateKeepIds age log).contains id) hid
          hafter
    · intro hall
      have hp := hkeep.mpr (hall gate rfl)
      rw [governing_filter (p := fun id => (gateKeepIds age log).contains id) hid hg hp]
      exact ⟨rfl, rfl⟩

/-! A closeout gate, answered, and a closeout gate that a question replaced. -/

/-- No record is old. -/
def noAge : String → Option Int := fun _ => some 0

/-- An answered gate, spent: its snapshot stays and goes on refusing. -/
def answeredLog : List GateRecord :=
  [{ id := "g1", ts := "2026-01-01T00:00:00+00:00", kind := .closeoutApproval
     state := .opened },
   { id := "g1", ts := "2026-01-01T00:01:00+00:00", kind := .closeoutApproval
     state := .applied, appliedOperation := some "op-1" }]

theorem answered_gate_keeps_verdict :
    SameVerdict .closeoutApproval {} none answeredLog (compact noAge answeredLog) := by
  apply (compact_preserves_verdict_iff noAge answeredLog ?_ .closeoutApproval (by decide) {}
    none).mpr
  · intro gate hgov
    have hstate : (governing (current answeredLog) .closeoutApproval).map (·.state)
        = some .applied := by decide
    rw [hgov] at hstate
    have happ : gate.state = .applied := Option.some.inj hstate
    rw [happ]
    decide
  · intro e he hne _
    have hall : ∀ e ∈ current answeredLog, e.2.state = .applied := by
      intro e he
      have hlist : (current answeredLog).map (·.2.state) = [.applied] := by decide
      have : e.2.state ∈ (current answeredLog).map (·.2.state) :=
        List.mem_map.mpr ⟨e, he, rfl⟩
      rw [hlist, List.mem_singleton] at this
      exact this
    exact absurd (hall e he) hne

/-- A closeout gate opened, and an agent's question opened behind it, which
expires it. -/
def questionRun : List Step :=
  [.openGate .closeoutApproval "g1" "2026-01-01T00:00:00+00:00" {} {},
    .read "g1" (.expire "2026-01-01T00:05:00+00:00"), .land 0,
    .openGate .agentQuestion "g2" "2026-01-01T00:05:00+00:00" {} {}]

/-- The expired closeout gate refuses; compacted, the closeout is gateless. -/
theorem expired_gate_compacted_away :
    (run step { log := [] } questionRun).map (fun s =>
        ((evaluateGate (current s.log) .closeoutApproval {} none).permitted,
          (evaluateGate (current s.log) .closeoutApproval {} none).gateId))
      = some (false, some "g1") ∧
    (run step { log := [] } (questionRun ++ [.compact noAge])).map (fun s =>
        ((evaluateGate (current s.log) .closeoutApproval {} none).permitted,
          (evaluateGate (current s.log) .closeoutApproval {} none).gateId))
      = some (true, none) := by
  decide

end AgentsRemember.Gates
