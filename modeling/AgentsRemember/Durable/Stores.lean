import AgentsRemember.Gates.Wire

/-!
# Durable — Stores

The three strict stores over the log primitives: the gate logs
(`Gates.gateStore`), the operator inbox and the expectation rows. They differ
in their record type, in where a record goes and in whether it is validated
once more before it is written; what a following read returns is one theorem.
-/

namespace AgentsRemember.Durable

open Gates (GateRecord gateStore)

/-- `OperatorInboxStore`: one log; `_append_unlocked` and `_replace_unlocked`
validate each entry at the write boundary. -/
def operatorInboxStore {ρ : Type} (entries : RecordModel ρ) : DurableStore ρ Unit where
  model := entries
  logPath := fun _ => ()
  revalidates := true

/-- `ExpectationRowStore`: one log. -/
def expectationRowStore {ρ : Type} (rows : RecordModel ρ) : DurableStore ρ Unit where
  model := rows
  logPath := fun _ => ()

/-- **The durable round trip**, for any of the stores. After any sequence of appends, batches and
rewrites a log is read back as exactly the records written to it, in order, if
and only if no text of them has a next line, a line separator or a paragraph
separator; else the read raises. -/
theorem round_trip_iff_unbroken {ρ π : Type} [DecidableEq π] (S : DurableStore ρ π)
    (ws : List (Write ρ π)) (p : π) :
    ∃ files, Runs.run S.write DurableStore.noFiles ws = some files ∧
      (S.read files p = some (S.contents ws p) ↔
        ∀ r ∈ S.contents ws p, S.model.Unbroken r) ∧
      (S.read files p = none ↔ ∃ r ∈ S.contents ws p, ¬S.model.Unbroken r) := by
  obtain ⟨files, hrun, hholds⟩ := S.run_holds ws
  obtain ⟨hgood, hbad⟩ := hholds.read p
  refine ⟨files, hrun, ⟨fun h r hr => ?_, hgood⟩, ⟨fun h => ?_, hbad⟩⟩
  · by_contra hn
    rw [hbad ⟨r, hr, hn⟩] at h
    cases h
  · by_contra hn
    push Not at hn
    rw [hgood hn] at h
    cases h

/-! A note with a line separator, as an agent may write it into a decision. -/

/-- An open gate. -/
def plainGate : GateRecord :=
  { id := "g1", ts := "2026-01-01T00:00:00+00:00", kind := .agentQuestion, state := .opened }

/-- A gate whose note holds a line separator. -/
def separatedGate : GateRecord :=
  { plainGate with state := .approved, decisionNote := some "yes\u2028go" }

/-- Two snapshots of one gate, and the log without the second. -/
theorem plain_snapshots_round_trip :
    ∃ files, Runs.run gateStore.write DurableStore.noFiles
        [.append plainGate, .append { plainGate with state := .expired }] = some files ∧
      gateStore.read files .workspace
        = some [plainGate, { plainGate with state := .expired }] := by
  obtain ⟨files, hrun, hread, -⟩ := round_trip_iff_unbroken gateStore
    [.append plainGate, .append { plainGate with state := .expired }] .workspace
  exact ⟨files, hrun, hread.mpr (by decide)⟩

/-- One line separator in one note, and the whole log is refused. -/
theorem separated_note_refuses_read :
    ∃ files, Runs.run gateStore.write DurableStore.noFiles
        [.append plainGate, .append separatedGate] = some files ∧
      gateStore.contents [.append plainGate, .append separatedGate] .workspace
        = [plainGate, separatedGate] ∧
      gateStore.read files .workspace = none := by
  obtain ⟨files, hrun, hholds⟩ :=
    gateStore.run_holds [.append plainGate, .append separatedGate]
  refine ⟨files, hrun, rfl, (hholds.read .workspace).2 ⟨separatedGate, ?_, ?_⟩⟩
  · exact List.mem_cons_of_mem _ (List.mem_singleton.mpr rfl)
  · decide

end AgentsRemember.Durable
