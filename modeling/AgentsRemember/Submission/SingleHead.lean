import AgentsRemember.Submission.Absorbing

/-!
# Submission — One head in flight, or not

The invariant of the dispatch timeline, at the level of the authority,
and what it is for: the adapter is invoked one operation at a time, in
admission order. Two of the remembered writes can break it, and a run
keeps it exactly when neither lands on a record that has left, or not
yet left, the queue. What the adapter sees stays orderly in every run.
-/

namespace AgentsRemember.Submission.Authority

/-- The active operation leads the timeline, the others are queued. -/
structure HeadInv (a : Authority) : Prop where
  active : ∀ key, a.active = some key → a.timeline.head? = some key ∧
    ∃ record, a.recordByKey key = some record ∧
      (record.state = .dispatching ∨ record.state = .delivered ∨ record.state = .unknown)
  queued : ∀ key ∈ a.timeline, a.active ≠ some key →
    ∃ record, a.recordByKey key = some record ∧ record.state = .queued
  nodup : a.timeline.Nodup

/-- The single head, and an adapter that is invoked in order. -/
structure SingleHead (a : Authority) : Prop where
  head : a.HeadInv
  orderly : Orderly a.history

/-- A preflight's blocker lands on a record that is still queued; an
accepted reconciliation does not land on a queued one. -/
def Current (a : Authority) : Step → Prop
  | .block _ =>
    match a.dispatcher with
    | .preflightClaim n _ _ => a.stateOf n = some .queued
    | _ => True
  | .reconcileAnswer i (some result) =>
    ∀ current, a.AnswersFor i result current → result.state = .accepted →
      current.state ≠ .queued
  | _ => True

/-- A row of the model is a record found by its key. -/
theorem row_mark_iff {a : Authority} (h : a.Valid) (key : OperationKey)
    (P : SubmissionLifecycleState → Prop) :
    (∃ n st, a.core.row key = some n ∧ a.core.mark n = some (key, st) ∧ P st) ↔
      ∃ record, a.recordByKey key = some record ∧ P record.state := by
  constructor
  · rintro ⟨n, st, hr, hm, hp⟩
    obtain ⟨record, ho, he⟩ := Option.map_eq_some_iff.mp hm
    cases he
    exact ⟨record, Option.bind_eq_some_iff.mpr ⟨n, hr, ho⟩, hp⟩
  · rintro ⟨record, hrec, hp⟩
    obtain ⟨hrow, hkey, ho⟩ := h.of_recordByKey hrec
    exact ⟨record.ref.sequence, record.state, hrow, hkey ▸ core_mark_of ho, hp⟩

theorem core_headInv {a : Authority} (h : a.Valid) : a.core.HeadInv ↔ a.HeadInv := by
  have hqueued : ∀ key, (∃ n, a.core.row key = some n ∧ a.core.mark n = some (key, .queued)) ↔
      ∃ record, a.recordByKey key = some record ∧ record.state = .queued := by
    intro key
    rw [← row_mark_iff h key (· = .queued)]
    constructor
    · rintro ⟨n, hr, hm⟩
      exact ⟨n, _, hr, hm, rfl⟩
    · rintro ⟨n, st, hr, hm, rfl⟩
      exact ⟨n, hr, hm⟩
  constructor
  · intro hi
    refine ⟨fun key ha => ?_, fun key hk ha => (hqueued key).mp (hi.queued key hk ha), hi.nodup⟩
    obtain ⟨hh, hrest⟩ := hi.active key ha
    exact ⟨hh, (row_mark_iff h key Timeline.InFlight).mp hrest⟩
  · intro hi
    refine ⟨fun key ha => ?_, fun key hk ha => (hqueued key).mpr (hi.queued key hk ha), hi.nodup⟩
    obtain ⟨hh, hrest⟩ := hi.active key ha
    exact ⟨hh, (row_mark_iff h key Timeline.InFlight).mpr hrest⟩

theorem reconcileCause_current (c : Timeline) (current : OperationRecord)
    (answer : ReconciliationState) :
    (reconcileCause current answer).Current c ↔
      (answer = .accepted → c.stateOf current.ref.sequence ≠ some .queued) := by
  cases answer <;> simp [reconcileCause, Timeline.Cause.Current]

theorem core_current {a : Authority} (h : a.Valid) (l : Step) :
    (a.cause l).Current a.core ↔ a.Current l := by
  cases l with
  | block at_ =>
    simp only [cause, Current]
    cases a.dispatcher with
    | preflightClaim n detail vendor =>
      show a.core.stateOf n = some .queued ↔ a.stateOf n = some .queued
      rw [core_stateOf]
    | _ => exact Iff.rfl
  | reconcileAnswer i answer =>
    cases answer with
    | none => exact Iff.rfl
    | some result =>
      rcases cause_reconcileAnswer a i result with ⟨hc, hnone⟩ | ⟨current, hc, hfor, huniq⟩
      · rw [hc]
        exact iff_of_true trivial fun current hf => absurd hf (hnone current)
      · obtain ⟨call, -, -, hcur⟩ := id hfor
        have hstate : a.core.stateOf current.ref.sequence = some current.state := by
          rw [core_stateOf, stateOf, (h.of_recordByKey hcur).2.2]
          rfl
        rw [hc, reconcileCause_current, hstate]
        constructor
        · rintro hq current' hf hst
          cases huniq current' hf
          exact fun he => hq hst (congrArg some he)
        · exact fun hq hst he => hq current hfor hst (Option.some.inj he)
  | _ => exact Iff.rfl

/-- What the current steps of a run preserve. -/
structure Steady (a : Authority) : Prop where
  valid : a.Valid
  ordered : a.core.Ordered
  head : a.HeadInv

theorem start_steady (config : AuthorityConfig) (snapshot : AdapterSnapshot) :
    (start config snapshot).Steady where
  valid := start_valid config snapshot
  ordered := by
    refine ⟨orderly_nil, ?_, ?_, ?_, ?_, ?_, ?_⟩
    · intro n hn
      cases hn
    · intro n hn
      cases hn
    · intro m n k st hm
      cases hm
    · intro n k st hn
      cases hn
    · intro n k hm
      cases hm
    · intro n ho
      cases ho
  head := by
    refine ⟨?_, ?_, ?_⟩
    · intro key ha
      cases ha
    · intro key hk
      cases hk
    · simp [start]

/-- The adapter's view stays orderly whatever the step. -/
theorem ordered_step {a a' : Authority} {l : Step} (hv : a.Valid) (ho : a.core.Ordered)
    (hs : a.step l = some a') : a'.core.Ordered :=
  (hv.step_refines hs).step.ordered hv.core ho

/-- Every reachable authority invoked its adapter in order. -/
theorem ReachableFrom.orderly {config snapshot} {a : Authority}
    (h : ReachableFrom config snapshot a) : Orderly a.history := by
  have hstart := start_steady config snapshot
  have hinv : a.Valid ∧ a.core.Ordered :=
    Runs.Reachable.invariant (I := fun b => b.Valid ∧ b.core.Ordered)
      (fun _ _ _ hb hs => ⟨valid_step hb.1 hs, ordered_step hb.1 hb.2 hs⟩)
      ⟨hstart.valid, hstart.ordered⟩ h
  exact hinv.2.orderly

theorem Steady.of_step {a a' : Authority} {l : Step} (h : a.Steady) (hs : a.step l = some a')
    (hc : a.Current l) : a'.Steady := by
  have hm := h.valid.step_refines hs
  have hv := hm.valid h.valid
  exact ⟨hv, ordered_step h.valid h.ordered hs, (core_headInv hv).mp
    (hm.step.keeps_head h.valid.core ((core_headInv h.valid).mpr h.head)
      ((core_current h.valid l).mpr hc))⟩

/-- A step that is not current loses the single head at once. -/
theorem Steady.breaks_head {a a' : Authority} {l : Step} (h : a.Steady)
    (hs : a.step l = some a') (hc : ¬ a.Current l) : ¬ a'.HeadInv := by
  have hm := h.valid.step_refines hs
  intro hi
  exact hm.step.breaks_head h.valid.core ((core_headInv h.valid).mpr h.head)
    (mt (core_current h.valid l).mp hc) ((core_headInv (hm.valid h.valid)).mpr hi)

/-- For every run of a started authority: every state it visits has a
single head and an orderly adapter exactly when every step is current. -/
theorem singleHead_iff_current (config : AuthorityConfig) (snapshot : AdapterSnapshot)
    (steps : List Step) :
    Runs.Always step SingleHead (start config snapshot) steps ↔
      Runs.Along step (fun a l _ => a.Current l) (start config snapshot) steps := by
  have hstart := start_steady config snapshot
  have hsame : Runs.Along step (fun a l _ => a.Current l) (start config snapshot) steps ↔
      Runs.Along step (fun _ _ a' => SingleHead a') (start config snapshot) steps := by
    refine Runs.along_iff_along (I := Steady) (fun a l a' h hs hc => h.of_step hs hc) ?_ hstart
    intro a l a' h hs
    constructor
    · intro hc
      have h' := h.of_step hs hc
      exact ⟨h'.head, h'.ordered.orderly⟩
    · intro hsingle
      by_contra hc
      exact h.breaks_head hs hc hsingle.head
  rw [hsame]
  constructor
  · exact fun h => h.2
  · exact fun h => ⟨⟨hstart.head, hstart.ordered.orderly⟩, h⟩

/-- After the late preflight claim, the withdrawn prompt is active and
the timeline is empty. -/
theorem withdrawn_prompt_turns_active :
    ¬ Runs.Always step SingleHead (start idleConfig idleSnapshot)
      (withdrawnInPreflight ++ claimedAfterwards) := by
  intro halways
  have hall : (Runs.run step (start idleConfig idleSnapshot)
      (withdrawnInPreflight ++ claimedAfterwards)).map (fun a => (a.active, a.timeline))
        = some (some (.prompt, "r"), []) := by
    decide
  obtain ⟨a, ha, hslots⟩ := Option.map_eq_some_iff.mp hall
  obtain ⟨hactive, htimeline⟩ := Prod.mk.inj hslots
  have hhead := ((halways.at_end ha).head.active _ hactive).1
  rw [htimeline] at hhead
  cases hhead

end AgentsRemember.Submission.Authority
