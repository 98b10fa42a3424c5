import AgentsRemember.Gates.Enforcement

/-!
# Gates — Log

One lifecycle's gate log (`controlplane/store.py`) as the records a read
returns, and what is done to it under its lock: appending a snapshot, spending
an approval, removing a gate, compacting. Every snapshot of a gate keeps the
gate's lifecycle, so it stays in the log.

Each operation comes with what it does to the fold: an append is an
assignment, a removal a removal, a compaction a filter on ids.
-/

namespace AgentsRemember.Gates

/-- `GateStore.current`: the last snapshot of each id. -/
def current (log : List GateRecord) : GateSet := Keyed.foldLast (·.id) log

/-! ## Retention -/

/-- The kinds a mutating tool consumes. -/
def mutatingToolGateKinds : List GateKind :=
  [.worktreeIntent, .closeoutApproval, .pushApproval, .integrationApproval, .cleanupApproval]

/-- The kinds the seam consumes. -/
def seamConsumedGateKinds : List GateKind := [.masterHandoverApproval]

/-- Gate kinds whose `applied` snapshot is an authority record. -/
def consumedApprovalGateKinds : List GateKind :=
  mutatingToolGateKinds ++ seamConsumedGateKinds

/-- The states that are pruned at once. -/
def pruneImmediateGateStates : List GateState := [.cancelled, .expired]

/-- The retention of a live gate, in microseconds. -/
def interactionRecordTtl : Int := 24 * 60 * 60 * 1000000

/-- `_keep_gate` at one moment: `age` is the age of a stamp then, none where
it cannot be read. -/
def keepGate (age : String → Option Int) (gate : GateRecord) : Bool :=
  if gate.state = .applied then consumedApprovalGateKinds.contains gate.kind
  else if pruneImmediateGateStates.contains gate.state then false
  else
    match age gate.ts with
    | none => true
    | some age => age ≤ interactionRecordTtl

/-- The gates a compaction keeps. -/
def gateKeepIds (age : String → Option Int) (log : List GateRecord) : List String :=
  (((current log).map Prod.snd).filter (keepGate age)).map (·.id)

/-- Whether a decision that a waiting agent was given can be removed. -/
def deleteAfterWait (gate : GateRecord) : Bool := !mutatingToolGateKinds.contains gate.kind

/-! ## What is done under the lock -/

/-- `GateStore.claim_approval`: the verdict, and the log with the approval
spent where the verdict spends one. -/
def claimApproval (log : List GateRecord) (kind : GateKind) (now : String)
    (policy : GatePolicy) (operationKey : Option String) : GateGuard × List GateRecord :=
  let gates := current log
  let guard := evaluateGate gates kind policy operationKey
  if guard.permitted then
    match guard.gateId.bind (fun id => gates.lookup id) with
    | none => (guard, log)
    | some gate =>
      if gate.state = .applied then (guard, log)
      else (guard, log ++ [applyGate gate now operationKey])
  else (guard, log)

/-- The log without a gate. -/
def delete (log : List GateRecord) (gateId : String) : List GateRecord :=
  log.filter (fun r => r.id ≠ gateId)

/-- The log without what is pruned. -/
def compact (age : String → Option Int) (log : List GateRecord) : List GateRecord :=
  log.filter (fun r => (gateKeepIds age log).contains r.id)

/-! ## The fold -/

theorem nodup_current (log : List GateRecord) : ((current log).map Prod.fst).Nodup :=
  Keyed.nodup_keys_foldLast _ log

theorem id_of_mem_current {log : List GateRecord} {e : String × GateRecord}
    (h : e ∈ current log) : e.2.id = e.1 :=
  (Keyed.foldLast_key GateRecord.id h).1

theorem mem_log_of_mem_current {log : List GateRecord} {e : String × GateRecord}
    (h : e ∈ current log) : e.2 ∈ log :=
  (Keyed.foldLast_key GateRecord.id h).2

theorem lookup_of_governing {log : List GateRecord} {kind : GateKind} {gate : GateRecord}
    (h : governing (current log) kind = some gate) :
    (current log).lookup gate.id = some gate := by
  obtain ⟨⟨id, hm⟩, -⟩ := governing_mem h
  have hid : gate.id = id := id_of_mem_current hm
  rw [hid]
  exact Keyed.lookup_of_mem (nodup_current log) hm

theorem current_append (log : List GateRecord) (r : GateRecord) :
    current (log ++ [r]) = Keyed.set (current log) r.id r :=
  Keyed.foldLast_snoc _ log r

theorem lookup_current_append (log : List GateRecord) (r : GateRecord) (id : String) :
    (current (log ++ [r])).lookup id =
      if r.id = id then some r else (current log).lookup id :=
  Keyed.lookup_foldLast_snoc _ log r id

theorem lookup_current_append_self {log : List GateRecord} {r : GateRecord} {id : String}
    (h : r.id = id) : (current (log ++ [r])).lookup id = some r := by
  rw [lookup_current_append, if_pos h]

theorem lookup_current_append_of_ne {log : List GateRecord} {r : GateRecord} {id : String}
    (h : r.id ≠ id) : (current (log ++ [r])).lookup id = (current log).lookup id := by
  rw [lookup_current_append, if_neg h]

theorem current_delete (log : List GateRecord) (gateId : String) :
    current (delete log gateId) = Keyed.erase (current log) gateId := by
  exact Keyed.foldLast_filter GateRecord.id (fun id => decide (id ≠ gateId)) log

theorem current_compact (age : String → Option Int) (log : List GateRecord) :
    current (compact age log) =
      (current log).filter (fun e => (gateKeepIds age log).contains e.1) :=
  Keyed.foldLast_filter GateRecord.id (fun id => (gateKeepIds age log).contains id) log

theorem lookup_current_delete (log : List GateRecord) (gateId id : String) :
    (current (delete log gateId)).lookup id =
      if id = gateId then none else (current log).lookup id := by
  rw [current_delete, Keyed.lookup_erase]

theorem lookup_current_compact (age : String → Option Int) (log : List GateRecord)
    (id : String) :
    (current (compact age log)).lookup id =
      if (gateKeepIds age log).contains id then (current log).lookup id else none := by
  rw [current_compact]
  exact Keyed.lookup_filter_key (fun id => (gateKeepIds age log).contains id) _ id

/-- A live gate is kept exactly when retention keeps its latest snapshot. -/
theorem contains_gateKeepIds {age : String → Option Int} {log : List GateRecord}
    {e : String × GateRecord} (h : e ∈ current log) :
    (gateKeepIds age log).contains e.1 = keepGate age e.2 := by
  rw [Bool.eq_iff_iff, List.contains_iff_mem, gateKeepIds]
  simp only [List.mem_map, List.mem_filter]
  constructor
  · rintro ⟨g, ⟨⟨e', he', rfl⟩, hkeep⟩, hid⟩
    have hkey : e'.1 = e.1 := (id_of_mem_current he').symm.trans hid
    have h₁ := Keyed.lookup_of_mem (nodup_current log) (k := e'.1) (v := e'.2) he'
    have h₂ := Keyed.lookup_of_mem (nodup_current log) (k := e.1) (v := e.2) h
    rw [hkey, h₂, Option.some.injEq] at h₁
    rw [h₁]
    exact hkeep
  · intro hkeep
    exact ⟨e.2, ⟨⟨e, h, rfl⟩, hkeep⟩, id_of_mem_current h⟩

/-! ## Spending -/

/-- A claim spends the governing gate when the verdict permits it and the
gate is not applied yet. -/
def Spends (log : List GateRecord) (kind : GateKind) (policy : GatePolicy)
    (operationKey : Option String) (gate : GateRecord) : Prop :=
  governing (current log) kind = some gate ∧ grants policy operationKey gate = true
    ∧ gate.state ≠ .applied

/-- What a claim does: it spends the governing approval, or writes nothing. -/
theorem claimApproval_log (log : List GateRecord) (kind : GateKind) (now : String)
    (policy : GatePolicy) (operationKey : Option String) :
    (∃ gate, Spends log kind policy operationKey gate ∧
      (claimApproval log kind now policy operationKey).2
        = log ++ [applyGate gate now operationKey]) ∨
    ((∀ gate, ¬Spends log kind policy operationKey gate) ∧
      (claimApproval log kind now policy operationKey).2 = log) := by
  unfold claimApproval Spends
  cases hg : governing (current log) kind with
  | none =>
    right
    simp [permits, hg]
  | some gate =>
    have hl := lookup_of_governing hg
    by_cases hp : grants policy operationKey gate = true
    · by_cases hs : gate.state = .applied
      · right
        simp [permits, hg, hp, hl, hs]
      · left
        exact ⟨gate, ⟨rfl, hp, hs⟩, by simp [permits, hg, hp, hl, hs]⟩
    · right
      simp [permits, hg, hp]

@[simp] theorem claimApproval_guard (log : List GateRecord) (kind : GateKind)
    (now : String) (policy : GatePolicy) (operationKey : Option String) :
    (claimApproval log kind now policy operationKey).1
      = evaluateGate (current log) kind policy operationKey := by
  unfold claimApproval
  dsimp only
  split
  · split
    · rfl
    · split <;> rfl
  · rfl

/-- A spent gate was approved. -/
theorem Spends.approved {log : List GateRecord} {kind : GateKind} {policy : GatePolicy}
    {operationKey : Option String} {gate : GateRecord}
    (h : Spends log kind policy operationKey gate) : gate.state = .approved := by
  rcases grants_state h.2.1 with hs | hs
  · exact hs
  · exact absurd hs h.2.2

end AgentsRemember.Gates
