import AgentsRemember.Gates.Decisions

/-!
# Gates — Spend

An approval is spent once. The fold of a gate reads approved only behind a
decision to approve: clients write applied never and approved only so,
removal and compaction take a gate's snapshots together, and a claim leaves
the gate applied. So between two spends of a gate an approval landed, and an
applied snapshot with an operation key comes from the claim with that key.
-/

namespace AgentsRemember.Gates

open Runs (run Along)

/-- A client's decision to approve the gate is appended. -/
def ApprovalLands (id : String) (s : State) (l : Step) : Prop :=
  ∃ i client, l = .land i ∧ s.inFlight[i]? = some client ∧ client.Approves id

/-- The claim of the step spends the gate. -/
def ClaimSpends (id : String) (operationKey : Option String) (s : State) (l : Step) : Prop :=
  ∃ kind now policy gate, l = .claim kind now policy operationKey ∧
    Spends s.log kind policy operationKey gate ∧ gate.id = id

/-! ## What a step does to one gate -/

/-- Where a step leaves a gate: as it was, gone, with a snapshot a client or
an opening wrote, or spent. -/
theorem step_lookup {s s' : State} {l : Step} (h : step s l = some s') (id : String) :
    (current s'.log).lookup id = (current s.log).lookup id ∨
    (current s'.log).lookup id = none ∨
    (∃ r, (current s'.log).lookup id = some r ∧ r.state = .opened) ∨
    (∃ i client, l = .land i ∧ s.inFlight[i]? = some client ∧ client.snapshot.id = id ∧
      (current s'.log).lookup id = some client.snapshot) ∨
    (∃ r, (current s'.log).lookup id = some r ∧ r.state = .applied) := by
  cases l with
  | openGate kind gateId now anchor request =>
    simp only [step, Option.some.injEq] at h
    subst h
    by_cases hid : gateId = id
    · right; right; left
      exact ⟨createGate kind gateId now anchor request, lookup_current_append_self hid, rfl⟩
    · left
      exact lookup_current_append_of_ne hid
  | read gateId edit =>
    left
    simp only [step, Option.bind_eq_some_iff, Option.map_eq_some_iff] at h
    obtain ⟨gate, -, client, -, rfl⟩ := h
    rfl
  | land i =>
    obtain ⟨client, hc, rfl⟩ := Option.map_eq_some_iff.mp h
    rcases client.lookup_land s.log id with ⟨hl, hid⟩ | ⟨hl, -⟩ | ⟨hl, -⟩
    · right; right; right; left
      exact ⟨i, client, rfl, hc, hid, hl⟩
    · exact .inr (.inl hl)
    · exact .inl hl
  | claim kind now policy operationKey =>
    simp only [step, Option.some.injEq] at h
    subst h
    rcases claimApproval_log s.log kind now policy operationKey with
      ⟨gate, -, hlog⟩ | ⟨-, hlog⟩
    · simp only [hlog]
      by_cases hid : gate.id = id
      · right; right; right; right
        exact ⟨applyGate gate now operationKey, lookup_current_append_self hid, rfl⟩
      · left
        exact lookup_current_append_of_ne hid
    · left
      simp only [hlog]
  | delete gateId =>
    simp only [step, Option.some.injEq] at h
    subst h
    simp only [lookup_current_delete]
    by_cases hid : id = gateId
    · right; left
      rw [if_pos hid]
    · left
      rw [if_neg hid]
  | compact age =>
    simp only [step, Option.some.injEq] at h
    subst h
    simp only [lookup_current_compact]
    split
    · exact .inl rfl
    · exact .inr (.inl rfl)

/-- The gate does not read approved. -/
def NotApproved (id : String) (s : State) : Prop :=
  ∀ r, (current s.log).lookup id = some r → r.state ≠ .approved

/-- Only an approval that lands makes a gate read approved. -/
theorem notApproved_step {id : String} {s s' : State} {l : Step} (hs : NotApproved id s)
    (h : step s l = some s') (hl : ¬ApprovalLands id s l) : NotApproved id s' := by
  intro r hr
  rcases step_lookup h id with hsame | hnone | ⟨r', hr', ho⟩ | ⟨i, c, hi, hc, hid, hr'⟩ |
    ⟨r', hr', ha⟩
  · exact hs r (hsame ▸ hr)
  · rw [hnone] at hr
    cases hr
  · rw [hr', Option.some.injEq] at hr
    rw [← hr, ho]
    decide
  · rw [hr', Option.some.injEq] at hr
    subst hr
    intro happ
    have := InFlight.approves_of_approved happ
    rw [hid] at this
    exact hl ⟨i, c, hi, hc, this⟩
  · rw [hr', Option.some.injEq] at hr
    rw [← hr, ha]
    decide

theorem notApproved_run {id : String} {s t : State} {ls : List Step}
    (hs : NotApproved id s) (hl : Along step (fun s l _ => ¬ApprovalLands id s l) s ls)
    (ht : run step s ls = some t) : NotApproved id t :=
  hl.invariant (fun _ _ _ hs h hl => notApproved_step hs h hl) hs ht

/-- A claim that spends a gate leaves it applied. -/
theorem notApproved_of_claimSpends {id : String} {operationKey : Option String}
    {s s' : State} {l : Step} (hl : ClaimSpends id operationKey s l)
    (h : step s l = some s') : NotApproved id s' := by
  obtain ⟨kind, now, policy, gate, rfl, hspends, hid⟩ := hl
  simp only [step, Option.some.injEq] at h
  subst h
  rcases claimApproval_log s.log kind now policy operationKey with
    ⟨gate', hspends', hlog⟩ | ⟨hnone, -⟩
  · have hsame : gate' = gate := Option.some.inj (hspends'.1.symm.trans hspends.1)
    subst hsame
    intro r hr
    have hspent : (current (s.log ++ [applyGate gate' now operationKey])).lookup id
        = some (applyGate gate' now operationKey) := lookup_current_append_self hid
    simp only [hlog, hspent, Option.some.injEq] at hr
    rw [← hr, applyGate_state]
    decide
  · exact absurd hspends (hnone gate)

theorem not_claimSpends_of_notApproved {id : String} {operationKey : Option String}
    {s : State} {l : Step} (h : NotApproved id s) : ¬ClaimSpends id operationKey s l := by
  rintro ⟨kind, now, policy, gate, -, hspends, hid⟩
  have hlook := lookup_of_governing hspends.1
  rw [hid] at hlook
  exact h gate hlook hspends.approved

/-- Between two spends of a gate a decision to approve it lands. -/
theorem approval_between_spends {id : String} {key₁ key₂ : Option String}
    {s₁ s₁' s₂ : State} {l₁ l₂ : Step} {mid : List Step}
    (h₁ : ClaimSpends id key₁ s₁ l₁) (hstep : step s₁ l₁ = some s₁')
    (hmid : run step s₁' mid = some s₂) (h₂ : ClaimSpends id key₂ s₂ l₂) :
    ∃ pre l post u, mid = pre ++ l :: post ∧ run step s₁' pre = some u ∧
      ApprovalLands id u l := by
  have hnot : ¬Along step (fun s l _ => ¬ApprovalLands id s l) s₁' mid := by
    intro hall
    have := notApproved_run (notApproved_of_claimSpends h₁ hstep) hall hmid
    exact not_claimSpends_of_notApproved this h₂
  obtain ⟨pre, l, post, u, u', hmid', hu, -, hl⟩ := Runs.exists_of_not_along hnot
  exact ⟨pre, l, post, u, hmid', hu, not_not.mp hl⟩

/-! ## Where an applied snapshot comes from -/

/-- A step that writes an applied snapshot is the claim that spends it. -/
theorem step_applied {s s' : State} {l : Step} (h : step s l = some s') {r : GateRecord}
    (hr : r ∈ s'.log) (ha : r.state = .applied) :
    r ∈ s.log ∨ ClaimSpends r.id r.appliedOperation s l := by
  cases l with
  | openGate kind gateId now anchor request =>
    simp only [step, Option.some.injEq] at h
    subst h
    rcases List.mem_append.mp hr with hr | hr
    · exact .inl hr
    · rw [List.mem_singleton] at hr
      rw [hr] at ha
      cases ha
  | read gateId edit =>
    simp only [step, Option.bind_eq_some_iff, Option.map_eq_some_iff] at h
    obtain ⟨gate, -, client, -, rfl⟩ := h
    exact .inl hr
  | land i =>
    obtain ⟨client, hc, rfl⟩ := Option.map_eq_some_iff.mp h
    have hmem : r ∈ s.log ++ [client.snapshot] := by
      have hland : ∀ r ∈ client.land s.log, r ∈ s.log ++ [client.snapshot] := by
        intro r hr
        unfold InFlight.land landDecision at hr
        split at hr
        · split at hr
          · exact List.mem_of_mem_filter hr
          · exact hr
        · exact hr
      exact hland r hr
    rcases List.mem_append.mp hmem with hr | hr
    · exact .inl hr
    · rw [List.mem_singleton] at hr
      rw [hr] at ha
      exact absurd ha client.snapshot_not_applied
  | claim kind now policy operationKey =>
    simp only [step, Option.some.injEq] at h
    subst h
    rcases claimApproval_log s.log kind now policy operationKey with
      ⟨gate, hspends, hlog⟩ | ⟨-, hlog⟩
    · simp only [hlog, List.mem_append, List.mem_singleton] at hr
      rcases hr with hr | rfl
      · exact .inl hr
      · right
        exact ⟨kind, now, policy, gate, rfl, hspends, rfl⟩
    · simp only [hlog] at hr
      exact .inl hr
  | delete gateId =>
    simp only [step, Option.some.injEq] at h
    subst h
    exact .inl (List.mem_of_mem_filter hr)
  | compact age =>
    simp only [step, Option.some.injEq] at h
    subst h
    exact .inl (List.mem_of_mem_filter hr)

/-- In a run an applied snapshot was there from the start, or a claim with
its operation key spent its gate. -/
theorem run_applied {s₀ : State} (ls : List Step) {s : State}
    (h : run step s₀ ls = some s) {r : GateRecord} (hr : r ∈ s.log)
    (ha : r.state = .applied) :
    r ∈ s₀.log ∨ ∃ pre l post u, ls = pre ++ l :: post ∧ run step s₀ pre = some u ∧
      ClaimSpends r.id r.appliedOperation u l := by
  induction ls using List.reverseRecOn generalizing s with
  | nil =>
    cases h
    exact .inl hr
  | append_singleton ls l ih =>
    obtain ⟨u, hu, hlast⟩ := Runs.run_append.mp h
    obtain ⟨s', hs', hend⟩ := Runs.run_cons_eq_some.mp hlast
    cases hend
    rcases step_applied hs' hr ha with hold | hspends
    · rcases ih hu hold with h₀ | ⟨pre, l', post, u', he, hu', hl'⟩
      · exact .inl h₀
      · exact .inr ⟨pre, l', post ++ [l], u', by simp [he], hu', hl'⟩
    · exact .inr ⟨ls, l, [], u, rfl, hu, hspends⟩

/-! ## The result -/

/-- **One approval is spent once.** Take any run from any log, and a claim at
its end. If it spends a gate that an earlier claim of the run spent, an
approval of the gate landed between the two. If it spends nothing, it leaves
the log as it was. If it is permitted on an applied gate, it carries the
operation key of that gate, and a claim with this key spent the gate in the
run, or the log had it so from the start. -/
theorem approval_spent_once (s₀ : State) (ls : List Step) (s : State)
    (hrun : run step s₀ ls = some s) (kind : GateKind) (now : String) (policy : GatePolicy)
    (operationKey : Option String) :
    (∀ gate, Spends s.log kind policy operationKey gate →
      ∀ key pre l mid u u', ls = pre ++ l :: mid → run step s₀ pre = some u →
        step u l = some u' → ClaimSpends gate.id key u l →
        ∃ pre' l' post v, mid = pre' ++ l' :: post ∧ run step u' pre' = some v ∧
          ApprovalLands gate.id v l') ∧
    ((∀ gate, ¬Spends s.log kind policy operationKey gate) →
      (claimApproval s.log kind now policy operationKey).2 = s.log) ∧
    ((claimApproval s.log kind now policy operationKey).1.permitted = true →
      ∀ gate, governing (current s.log) kind = some gate → gate.state = .applied →
        operationKey.isSome ∧ gate.appliedOperation = operationKey ∧
        (gate ∈ s₀.log ∨ ∃ pre l post u, ls = pre ++ l :: post ∧
          run step s₀ pre = some u ∧ ClaimSpends gate.id operationKey u l)) := by
  refine ⟨?_, ?_, ?_⟩
  · intro gate hspends key pre l mid u u' hls hu hl hfirst
    rw [hls] at hrun
    obtain ⟨u₁, hu₁, hrest⟩ := Runs.run_append.mp hrun
    obtain ⟨u₂, hu₂, hmid⟩ := Runs.run_cons_eq_some.mp hrest
    cases hu.symm.trans hu₁
    cases hl.symm.trans hu₂
    exact approval_between_spends hfirst hl hmid
      ⟨kind, now, policy, gate, rfl, hspends, rfl⟩
  · intro hnone
    rcases claimApproval_log s.log kind now policy operationKey with ⟨gate, hg, -⟩ | ⟨-, hlog⟩
    · exact absurd hg (hnone gate)
    · exact hlog
  · intro hperm gate hgov happ
    rw [claimApproval_guard, evaluateGate_permitted, hgov] at hperm
    have hkey : operationKey.isSome = true ∧ gate.appliedOperation = operationKey := by
      simpa [permits, grants, happ] using hperm
    have hmem : gate ∈ s.log := by
      obtain ⟨⟨id, hm⟩, -⟩ := governing_mem hgov
      exact mem_log_of_mem_current hm
    refine ⟨hkey.1, hkey.2, ?_⟩
    have := run_applied ls hrun hmem happ
    rwa [hkey.2] at this

/-! A closeout gate approved by the developer, spent by one operation and
claimed by another. -/

/-- An open gate. -/
def closeoutGate : GateRecord :=
  { id := "g1", ts := "2026-01-01T00:00:00+00:00", kind := .closeoutApproval
    state := .opened, lifecycleId := some "lc1" }

/-- An approval. -/
def developerApproves : Edit :=
  .decide .approve {} { decision := "approve", via := .dashboard, by_ := some "developer" }
    "2026-01-01T00:01:00+00:00" []

/-- The gate is approved and spent. -/
def spendingRun : List Step :=
  [.read "g1" developerApproves, .land 0,
    .claim .closeoutApproval "2026-01-01T00:02:00+00:00" {} (some "op-1")]

theorem spendingRun_goes :
    (run step { log := [closeoutGate] } spendingRun).isSome = true := by decide

/-- The state behind that run. -/
def spentState : State := (run step { log := [closeoutGate] } spendingRun).get spendingRun_goes

theorem spentState_applied :
    (governing (current spentState.log) .closeoutApproval).map (·.state)
      = some .applied := by decide

/-- The second operation is left with nothing. -/
theorem second_claim_writes_nothing :
    run step { log := [closeoutGate] } spendingRun = some spentState ∧
      (claimApproval spentState.log .closeoutApproval "2026-01-01T00:03:00+00:00" {}
        (some "op-2")).2 = spentState.log ∧ spentState.log.length = 3 := by
  have hrun : run step { log := [closeoutGate] } spendingRun = some spentState :=
    (Option.some_get spendingRun_goes).symm
  obtain ⟨-, hnothing, -⟩ := approval_spent_once _ spendingRun spentState hrun
    .closeoutApproval "2026-01-01T00:03:00+00:00" {} (some "op-2")
  refine ⟨hrun, hnothing ?_, by decide⟩
  intro gate ⟨hgov, _, hne⟩
  have happ := spentState_applied
  rw [hgov] at happ
  exact hne (Option.some.inj happ)

end AgentsRemember.Gates
