import AgentsRemember.Submission.Refinement

/-!
# Submission — Settled operations are absorbing, or not

Three writes go to a record that was remembered across an `await`
without looking at it again: the blocker of a preflight that may have
sent, the blocker of a method that may have sent, and the answer of a
reconciliation. `Quiet` says of one step that it does not write any of
them over a settled operation; a run leaves its settled operations
alone exactly when all its steps are quiet.
-/

namespace AgentsRemember.Submission.Authority

/-- The record is still the retained one of its key, and holds a place
in dispatch: its head was not released. -/
def HoldsHead (a : Authority) (record : OperationRecord) : Prop :=
  a.ledger.byKey record.key = some record.ref.sequence ∧
    (a.active = some record.key ∨ record.key ∈ a.timeline)

/-- Withdrawn, rejected, unsupported, or delivered with its head released. -/
def Settled (a : Authority) (n : Nat) : Prop :=
  ∃ record, a.objects n = some record ∧
    (record.state = .withdrawn ∨ record.state = .rejected ∨ record.state = .unsupported ∨
      record.state = .delivered ∧ ¬ a.HoldsHead record)

/-- The state of an operation. -/
def stateOf (a : Authority) (n : Nat) : Option SubmissionLifecycleState :=
  (a.objects n).map (·.state)

/-- The operation the active slot names. -/
def IsActive (a : Authority) (n : Nat) : Prop :=
  ∃ key, a.active = some key ∧ a.ledger.byKey key = some n

/-- The lifecycle state a reconciliation answer decides for. -/
def answeredState : ReconciliationState → Option SubmissionLifecycleState
  | .accepted => some .delivered
  | .rejected => some .rejected
  | .unsupported => some .unsupported
  | .unresolved => none

/-- The record the `i`-th reconciliation in flight writes this answer on. -/
def AnswersFor (a : Authority) (i : Nat) (result : ReconciliationResult)
    (current : OperationRecord) : Prop :=
  ∃ call, a.reconciling[i]? = some call ∧ result.requestId = call.1 ∧
    a.recordByKey (refKey call.2) = some current

/-- The step writes no remembered record over a settled operation. -/
def Quiet (a : Authority) : Step → Prop
  | .block _ =>
    match a.dispatcher with
    | .preflightClaim n _ _ | .possibleSend n _ _ => ¬ a.Settled n
    | _ => True
  | .reconcileAnswer i (some result) =>
    ∀ current st, a.AnswersFor i result current → answeredState result.state = some st →
      a.Settled current.ref.sequence → current.state = st
  | _ => True

/-- Wherever the run is cut, an operation settled at the first cut has
the same state at the second and is not the active one there. -/
def Absorbing (a₀ : Authority) (steps : List Step) : Prop :=
  ∀ pre mid post, steps = pre ++ mid ++ post → ∀ a a', Runs.run step a₀ pre = some a →
    Runs.run step a mid = some a' → ∀ n, a.Settled n →
      a'.stateOf n = a.stateOf n ∧ ¬ a'.IsActive n

/-! ## The same notions in the model -/

theorem core_stateOf (a : Authority) (n : Nat) : a.core.stateOf n = a.stateOf n := by
  simp only [Timeline.stateOf, core_mark, stateOf, Option.map_map]
  rfl

theorem core_settled {a : Authority} (h : a.Valid) (n : Nat) :
    a.core.Settled n ↔ a.Settled n := by
  constructor
  · rintro ⟨k, st, hm, hst⟩
    obtain ⟨record, ho, he⟩ := Option.map_eq_some_iff.mp hm
    cases he
    cases (h.objects n record ho).1
    exact ⟨record, ho, hst⟩
  · rintro ⟨record, ho, hst⟩
    cases (h.objects n record ho).1
    exact ⟨record.key, record.state, core_mark_of ho, hst⟩

/-- A reconciliation answer either falls on no record, or on one. -/
theorem cause_reconcileAnswer (a : Authority) (i : Nat) (result : ReconciliationResult) :
    (a.cause (.reconcileAnswer i (some result)) = .plain ∧
      ∀ current, ¬ a.AnswersFor i result current) ∨
    ∃ current, a.cause (.reconcileAnswer i (some result)) = reconcileCause current result.state ∧
      a.AnswersFor i result current ∧
      ∀ current', a.AnswersFor i result current' → current' = current := by
  simp only [cause]
  cases hi : a.reconciling[i]? with
  | none =>
    refine .inl ⟨rfl, ?_⟩
    rintro current ⟨call, hcall, -⟩
    rw [hi] at hcall
    cases hcall
  | some call =>
    cases hcur : a.recordByKey (refKey call.2) with
    | none =>
      refine .inl ⟨by simp [hcur], ?_⟩
      rintro current ⟨call', hcall, -, hrec⟩
      rw [hi] at hcall
      cases hcall
      rw [hcur] at hrec
      cases hrec
    | some current =>
      by_cases hid : result.requestId = call.1
      · refine .inr ⟨current, by simp [hcur, hid], ⟨call, hi, hid, hcur⟩, ?_⟩
        rintro current' ⟨call', hcall, -, hrec⟩
        rw [hi] at hcall
        cases hcall
        rw [hcur] at hrec
        exact (Option.some.inj hrec).symm
      · refine .inl ⟨by simp [hcur, hid], ?_⟩
        rintro current' ⟨call', hcall, hid', -⟩
        rw [hi] at hcall
        cases hcall
        exact hid hid'

theorem reconcileCause_quiet (c : Timeline) (current : OperationRecord)
    (answer : ReconciliationState) :
    (reconcileCause current answer).Quiet c ↔ ∀ st, answeredState answer = some st →
      c.Settled current.ref.sequence → c.stateOf current.ref.sequence = some st := by
  cases answer <;> simp [reconcileCause, Timeline.Cause.Quiet, answeredState]

theorem core_quiet {a : Authority} (h : a.Valid) (l : Step) :
    (a.cause l).Quiet a.core ↔ a.Quiet l := by
  cases l with
  | block at_ =>
    simp only [cause, Quiet]
    cases a.dispatcher with
    | preflightClaim n detail vendor => exact not_congr (core_settled h n)
    | possibleSend n detail vendor => exact not_congr (core_settled h n)
    | _ => exact Iff.rfl
  | reconcileAnswer i answer =>
    cases answer with
    | none => exact Iff.rfl
    | some result =>
      rcases cause_reconcileAnswer a i result with ⟨hc, hnone⟩ | ⟨current, hc, hfor, huniq⟩
      · rw [hc]
        exact iff_of_true trivial fun current _ hf => absurd hf (hnone current)
      · obtain ⟨call, -, -, hcur⟩ := id hfor
        have hstate : a.core.stateOf current.ref.sequence = some current.state := by
          rw [core_stateOf, stateOf, (h.of_recordByKey hcur).2.2]
          rfl
        rw [hc, reconcileCause_quiet, hstate, core_settled h]
        constructor
        · rintro hq current' st hf hst hset
          cases huniq current' hf
          exact Option.some.inj (hq st hst hset)
        · exact fun hq st hst hset => congrArg some (hq current st hfor hst hset)
  | _ => exact Iff.rfl

/-- What the quiet steps of a run preserve. -/
structure Sound (a : Authority) : Prop where
  valid : a.Valid
  accounted : a.core.Accounted

theorem start_sound (config : AuthorityConfig) (snapshot : AdapterSnapshot) :
    (start config snapshot).Sound where
  valid := start_valid config snapshot
  accounted := by
    constructor
    · intro n k hm
      cases hm
    · intro k ha
      cases ha

theorem Sound.of_step {a a' : Authority} {l : Step} (h : a.Sound) (hs : a.step l = some a')
    (hq : a.Quiet l) : a'.Sound := by
  have hm := h.valid.step_refines hs
  exact ⟨hm.valid h.valid,
    hm.step.accounted h.valid.core h.accounted ((core_quiet h.valid l).mpr hq)⟩

/-- A quiet step keeps what is settled, and does not make it active. -/
theorem Sound.keeps_settled {a a' : Authority} {l : Step} (h : a.Sound)
    (hs : a.step l = some a') (hq : a.Quiet l) {n : Nat} (hn : a.Settled n) :
    a'.Settled n ∧ a'.stateOf n = a.stateOf n := by
  have hm := h.valid.step_refines hs
  obtain ⟨hset, hmark⟩ := hm.step.keeps_settled h.valid.core h.accounted
    ((core_quiet h.valid l).mpr hq) ((core_settled h.valid n).mpr hn)
  refine ⟨(core_settled (hm.valid h.valid) n).mp hset, ?_⟩
  rw [← core_stateOf, ← core_stateOf, Timeline.stateOf, Timeline.stateOf, hmark]

theorem Sound.not_active {a : Authority} (h : a.Sound) {n : Nat} (hn : a.Settled n) :
    ¬ a.IsActive n := by
  rintro ⟨key, ha, hr⟩
  exact h.accounted.not_settled_of_active ha hr ((core_settled h.valid n).mpr hn)

/-- A step that is not quiet moves some settled operation. -/
theorem Sound.breaks_settled {a a' : Authority} {l : Step} (h : a.Sound)
    (hs : a.step l = some a') (hq : ¬ a.Quiet l) :
    ∃ n, a.Settled n ∧ a'.stateOf n ≠ a.stateOf n := by
  have hm := h.valid.step_refines hs
  obtain ⟨n, hn, hne⟩ := hm.step.breaks_settled (mt (core_quiet h.valid l).mp hq)
  rw [core_stateOf, core_stateOf] at hne
  exact ⟨n, (core_settled h.valid n).mp hn, hne⟩

/-- Settled operations stay settled along quiet steps. -/
theorem Sound.run_keeps_settled {a a' : Authority} {steps : List Step} (h : a.Sound)
    (hq : Runs.Along step (fun a l _ => a.Quiet l) a steps)
    (hs : Runs.run step a steps = some a') {n : Nat} (hn : a.Settled n) :
    a'.stateOf n = a.stateOf n ∧ ¬ a'.IsActive n := by
  obtain ⟨h', hn', hst⟩ := Runs.Along.invariant
    (I := fun b => b.Sound ∧ b.Settled n ∧ b.stateOf n = a.stateOf n)
    (fun b l b' ⟨hb, hbn, hbst⟩ hs' hq' =>
      have hkeep := hb.keeps_settled hs' hq' hbn
      ⟨hb.of_step hs' hq', hkeep.1, hkeep.2.trans hbst⟩)
    ⟨h, hn, rfl⟩ hq hs
  exact ⟨hst, h'.not_active hn'⟩

/-- For every run of a started authority: its settled operations are
left alone, wherever the run is cut, exactly when every step is quiet. -/
theorem absorbing_iff_quiet (config : AuthorityConfig) (snapshot : AdapterSnapshot)
    (steps : List Step) :
    Absorbing (start config snapshot) steps ↔
      Runs.Along step (fun a l _ => a.Quiet l) (start config snapshot) steps := by
  have hstart := start_sound config snapshot
  constructor
  · intro habs
    have hstep : Runs.Along step (fun a _ a' => ∀ n, a.Settled n → a'.stateOf n = a.stateOf n)
        (start config snapshot) steps := by
      refine Runs.along_of_forall fun pre l post hsplit a a' ha hs n hn => ?_
      have hrun : Runs.run step a [l] = some a' := Runs.run_cons_eq_some.mpr ⟨a', hs, rfl⟩
      exact (habs pre [l] post (by simpa using hsplit) a a' ha hrun n hn).1
    refine (Runs.along_iff_along (I := Sound) ?_ ?_ hstart).mpr hstep
    · exact fun a l a' h hs hq => h.of_step hs hq
    · intro a l a' h hs
      constructor
      · exact fun hq n hn => (h.keeps_settled hs hq hn).2
      · intro hkeep
        by_contra hq
        obtain ⟨n, hn, hne⟩ := h.breaks_settled hs hq
        exact hne (hkeep n hn)
  · rintro hq pre mid post rfl a a' ha hmid n hn
    have hpre : Runs.run step (start config snapshot) (pre ++ mid) = some a' :=
      Runs.run_append.mpr ⟨a, ha, hmid⟩
    have hboth := (hq.append hpre).1
    obtain ⟨hqpre, hqmid⟩ := hboth.append ha
    have hsound : a.Sound := hqpre.invariant (fun b l b' h hs hq => h.of_step hs hq) hstart ha
    exact hsound.run_keeps_settled hqmid hmid hn

/-! ## A withdrawal granted during preflight -/

/-- An authority bridging one idle harness. -/
def idleConfig : AuthorityConfig :=
  { bridgeEpoch := "e", limits := ⟨2, 2, by decide, by decide⟩, assetSubmitCapable := false,
    payloadDigest := fun text _ => text }

/-- A snapshot that allows a dispatch. -/
def idleSnapshot : AdapterSnapshot :=
  { control := .ready, activity := .idle, acceptance := .immediate }

/-- A prompt. -/
def onePrompt : AdmittedRequest :=
  ⟨{ requestId := "r", source := .cockpit, text := "hello", submittedAt := "t" }, by decide⟩

/-- The prompt is chosen, and withdrawn while the adapter preflights it. -/
def withdrawnInPreflight : List Step :=
  [.submit onePrompt, .wakeUp, .look, .withdraw "e" "r" true "t1"]

/-- The preflight disconnects and may have sent. -/
def claimedAfterwards : List Step :=
  [.preflightAnswer (.disconnected true "gone" none), .block "t2"]

theorem settled_of_withdrawn {a : Authority} {n : Nat} (h : a.stateOf n = some .withdrawn) :
    a.Settled n := by
  obtain ⟨record, ho, hst⟩ := Option.map_eq_some_iff.mp h
  exact ⟨record, ho, .inl hst⟩

theorem withdrawn_prompt_turns_unknown :
    ¬ Absorbing (start idleConfig idleSnapshot) (withdrawnInPreflight ++ claimedAfterwards) := by
  intro habs
  have hpre : (Runs.run step (start idleConfig idleSnapshot) withdrawnInPreflight).map
      (·.stateOf 1) = some (some .withdrawn) := by decide
  have hall : (Runs.run step (start idleConfig idleSnapshot)
      (withdrawnInPreflight ++ claimedAfterwards)).map (·.stateOf 1) = some (some .unknown) := by
    decide
  obtain ⟨a, ha, hwithdrawn⟩ := Option.map_eq_some_iff.mp hpre
  obtain ⟨a', ha', hunknown⟩ := Option.map_eq_some_iff.mp hall
  obtain ⟨u, hu, hmid⟩ := Runs.run_append.mp ha'
  cases ha.symm.trans hu
  obtain ⟨hkept, -⟩ := habs withdrawnInPreflight claimedAfterwards [] (by simp) a a' ha hmid 1
    (settled_of_withdrawn hwithdrawn)
  rw [hwithdrawn, hunknown] at hkept
  cases hkept

end AgentsRemember.Submission.Authority
