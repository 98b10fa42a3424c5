import AgentsRemember.Submission.Settled

/-!
# Submission — The single head

The invariant of the timeline, `HeadInv`: whoever is active leads the
timeline and is in flight, everyone else on it is queued, and nobody is
on it twice. It survives every transition except two writes of a
remembered record: a preflight claim on a record that has left the
queue, and an accepted reconciliation on a record that is queued.

What the adapter sees needs no such condition. `Orderly` reads a
history back: invocations are one at a time, in admission order, never
for a withdrawn operation, and repeated only after a certified requeue.
-/

namespace AgentsRemember.Submission.Timeline

/-- The active operation leads the timeline, the others are queued. -/
structure HeadInv (c : Timeline) : Prop where
  active : ∀ k, c.active = some k → c.timeline.head? = some k ∧
    ∃ n st, c.row k = some n ∧ c.mark n = some (k, st) ∧ InFlight st
  queued : ∀ k ∈ c.timeline, c.active ≠ some k →
    ∃ n, c.row k = some n ∧ c.mark n = some (k, .queued)
  nodup : c.timeline.Nodup

/-- The two remembered writes that look at the queue. -/
def Cause.Current (c : Timeline) : Cause → Prop
  | .preflightClaim n => c.stateOf n = some .queued
  | .reconciled n .delivered => c.stateOf n ≠ some .queued
  | _ => True

section
variable {c : Timeline} {k : OperationKey} {n : Nat} {st old : SubmissionLifecycleState}

/-- A write under another key is not seen through `k'`. -/
theorem setMark_of_key_ne {k' : OperationKey} {m : Nat} {st'}
    (hm : c.mark n = some (k, old)) (hm' : c.mark m = some (k', st')) (hne : k' ≠ k) :
    (c.setMark n k st).mark m = some (k', st') := by
  rw [setMark_mark, if_neg]
  · exact hm'
  · rintro rfl
    exact hne (mark_inj hm hm').1.symm

theorem HeadInv.evict (h : c.HeadInv) {row'} (he : c.Evicted row') :
    HeadInv { c with row := row' } where
  active := by
    intro k' ha
    obtain ⟨hh, m, st', hr, hm, hf⟩ := h.active k' ha
    exact ⟨hh, m, st', WF.retained_of_evicted he (.inl ha) hr, hm, hf⟩
  queued := by
    intro k' hk' ha
    obtain ⟨m, hr, hm⟩ := h.queued k' hk' ha
    exact ⟨m, WF.retained_of_evicted he (.inr hk') hr, hm⟩
  nodup := h.nodup

theorem HeadInv.enrol (h : c.HeadInv) (hw : c.WF) (hk : c.row k = none)
    (st : SubmissionLifecycleState) :
    HeadInv (c.enrolled c.row k st) where
  active := by
    intro k' ha
    obtain ⟨hh, m, st', hr, hm, hf⟩ := h.active k' ha
    have hne : k ≠ k' := by
      rintro rfl
      rw [hk] at hr
      cases hr
    refine ⟨hh, m, st', ?_, ?_, hf⟩
    · simp only [enrolled, if_neg hne]
      exact hr
    · simp only [enrolled, if_neg (hw.mark_ne_fresh hm)]
      exact hm
  queued := by
    intro k' hk' ha
    obtain ⟨m, hr, hm⟩ := h.queued k' hk' ha
    have hne : k ≠ k' := by
      rintro rfl
      rw [hk] at hr
      cases hr
    refine ⟨m, ?_, ?_⟩
    · simp only [enrolled, if_neg hne]
      exact hr
    · simp only [enrolled, if_neg (hw.mark_ne_fresh hm)]
      exact hm
  nodup := h.nodup

/-- A fresh queued operation joins at the end. -/
theorem HeadInv.enrol_queued (h : c.HeadInv) (hw : c.WF) (hk : c.row k = none) :
    HeadInv { (c.enrolled c.row k .queued) with timeline := c.timeline ++ [k] } where
  active := by
    intro k' ha
    obtain ⟨hh, hrest⟩ := (h.enrol hw hk .queued).active k' ha
    refine ⟨?_, hrest⟩
    have hh' : c.timeline.head? = some k' := hh
    simp [List.head?_append, hh']
  queued := by
    intro k' hk' ha
    rcases List.mem_append.mp hk' with hk' | hk'
    · exact (h.enrol hw hk .queued).queued k' hk' ha
    · rw [List.mem_singleton] at hk'
      subst hk'
      exact ⟨c.count + 1, by simp [enrolled], by simp [enrolled]⟩
  nodup := (hw.enrol_queued hk).nodup

/-- Releasing a retained row keeps the invariant, whatever is written. -/
theorem HeadInv.release (h : c.HeadInv) (hm : c.mark n = some (k, old))
    (st : SubmissionLifecycleState) (p : Position) :
    HeadInv { ((c.setMark n k st).release k) with position := p } where
  active := by
    intro k' ha
    obtain ⟨hne, ha⟩ := active_of_release ha
    obtain ⟨hh, m, st', hr, hm', hf⟩ := h.active k' ha
    exact ⟨head?_erase_of_ne hh hne, m, st', hr, setMark_of_key_ne hm hm' hne, hf⟩
  queued := by
    intro k' hk' ha
    obtain ⟨hne, hk'⟩ := h.nodup.mem_erase_iff.mp hk'
    have ha' : c.active ≠ some k' := by
      intro he
      refine ha ?_
      show (if c.active = some k then none else c.active) = some k'
      rw [if_neg, he]
      rw [he]
      exact fun h' => hne (Option.some.inj h')
    obtain ⟨m, hr, hm'⟩ := h.queued k' hk' ha'
    exact ⟨m, hr, setMark_of_key_ne hm hm' hne⟩
  nodup := h.nodup.erase k

/-- Writing an in-flight state on a record that is not queued. -/
theorem HeadInv.rewrite (h : c.HeadInv) (hm : c.mark n = some (k, old)) (hold : old ≠ .queued)
    (hf : InFlight st) (p : Position) :
    HeadInv { (c.setMark n k st) with position := p } where
  active := by
    intro k' ha
    obtain ⟨hh, m, st', hr, hm', hf'⟩ := h.active k' ha
    by_cases hmn : m = n
    · subst hmn
      obtain ⟨rfl, rfl⟩ := mark_inj hm hm'
      exact ⟨hh, m, st, hr, by simp [setMark_mark], hf⟩
    · refine ⟨hh, m, st', hr, ?_, hf'⟩
      simp only [setMark_mark, if_neg hmn]
      exact hm'
  queued := by
    intro k' hk' ha
    obtain ⟨m, hr, hm'⟩ := h.queued k' hk' ha
    refine ⟨m, hr, ?_⟩
    simp only [setMark_mark]
    rw [if_neg]
    · exact hm'
    · rintro rfl
      exact hold (mark_inj hm hm').2
  nodup := h.nodup

/-- The queued head turns active, in flight. -/
theorem HeadInv.activate (h : c.HeadInv) (hh : c.timeline.head? = some k)
    (hr : c.row k = some n) (hm : c.mark n = some (k, old)) (ha : c.active = none)
    (hf : InFlight st) (p : Position) (events : List HistoryEvent) :
    HeadInv { (c.setMark n k st) with active := some k, position := p, history := events } where
  active := by
    intro k' hk'
    cases hk'
    exact ⟨hh, n, st, hr, by simp [setMark_mark], hf⟩
  queued := by
    intro k' hk' hne
    have hne : k' ≠ k := fun he => hne (congrArg some he.symm)
    obtain ⟨m, hr', hm'⟩ := h.queued k' hk' (by rw [ha]; simp)
    exact ⟨m, hr', setMark_of_key_ne hm hm' hne⟩
  nodup := h.nodup

theorem HeadInv.requeue (h : c.HeadInv) (hr : c.row k = some n) (hm : c.mark n = some (k, old))
    (ha : c.active = some k) (p : Position) (events : List HistoryEvent) :
    HeadInv { (c.setMark n k .queued) with active := none, position := p, history := events } where
  active := by
    intro k' hk'
    cases hk'
  queued := by
    intro k' hk' _
    by_cases hne : k' = k
    · subst hne
      exact ⟨n, hr, by simp [setMark_mark]⟩
    · obtain ⟨m, hr', hm'⟩ := h.queued k' hk' (by rw [ha]; simpa using Ne.symm hne)
      exact ⟨m, hr', setMark_of_key_ne hm hm' hne⟩
  nodup := h.nodup

/-- A queued record is not the active one. -/
theorem HeadInv.active_ne_of_queued (h : c.HeadInv) (hr : c.row k = some n)
    (hm : c.mark n = some (k, .queued)) : c.active ≠ some k := by
  intro ha
  obtain ⟨-, m, st, hr', hm', hf⟩ := h.active k ha
  cases row_inj hr hr'
  obtain ⟨-, rfl⟩ := mark_inj hm hm'
  rcases hf with hf | hf | hf <;> cases hf

theorem WF.not_queued_of_called (h : c.WF) (hp : c.position = .called n)
    (hm : c.mark n = some (k, st)) : st ≠ .queued := by
  obtain ⟨k', st', hm', hst⟩ := h.called n (.inr hp)
  rw [(mark_inj hm hm').2]
  exact hst

end

/-- Current transitions keep the invariant. -/
theorem Step.keeps_head {cause : Cause} {c c' : Timeline} (h : Step cause c c') (hw : c.WF)
    (hi : c.HeadInv) (hq : cause.Current c) : c'.HeadInv := by
  cases h with
  | stay => exact hi
  | evict he => exact hi.evict he
  | join he hk => exact (hi.evict he).enrol_queued (hw.evict he) hk
  | refuse he hk => exact (hi.evict he).enrol (hw.evict he) hk _
  | withdraw hr hm =>
    have hne := hi.active_ne_of_queued hr hm
    have hrel := hi.release hm .withdrawn c.position
    have hact : (if c.active = some _ then none else c.active) = c.active := if_neg hne
    refine ⟨fun k' ha => hrel.active k' (hact.trans ha), fun k' hk' ha => ?_, hrel.nodup⟩
    exact hrel.queued k' hk' (fun he => ha (hact.symm.trans he))
  | settle hr hm hold hst => exact hi.release hm _ c.position
  | choose hp hh hr hm ha => exact ⟨hi.active, hi.queued, hi.nodup⟩
  | unchoose hp => exact ⟨hi.active, hi.queued, hi.nodup⟩
  | claim hp hh hm ha =>
    exact hi.activate hh (hw.pending _ _ _ hm (.inl rfl)).1 hm ha (.inl rfl) _ _
  | answer hp => exact ⟨hi.active, hi.queued, hi.nodup⟩
  | requeue hp hm ha => exact hi.requeue (hw.pending _ _ _ hm (.inr rfl)).1 hm ha _ _
  | abandon hp hm hst => exact ⟨hi.active, hi.queued, hi.nodup⟩
  | hold hp hr hm ha hst =>
    exact hi.rewrite hm (hw.not_queued_of_called hp hm) (hst.elim (.inr ∘ .inl) (.inr ∘ .inr)) _
  | finish hp hr hm ha hst => exact hi.release hm _ _
  | preflightClaim hp hm =>
    obtain ⟨k', hm'⟩ := stateOf_eq_some.mp hq
    obtain ⟨rfl, rfl⟩ := mark_inj hm hm'
    obtain ⟨ha, k', st, hm', hh⟩ := hw.chosen _ hp
    obtain ⟨rfl, rfl⟩ := mark_inj hm hm'
    have hr := (hw.pending _ _ _ hm (.inl rfl)).1
    exact hi.activate (hh rfl) hr hm ha (.inr (.inr rfl)) _ _
  | possibleSend hp hm =>
    exact hi.rewrite hm (hw.not_queued_of_called hp hm) (.inr (.inr rfl)) _
  | reconcileAccepted hr hm =>
    refine hi.rewrite hm ?_ (.inr (.inl rfl)) c.position
    rintro rfl
    exact hq (stateOf_of_mark hm)
  | reconcileRefused hr hm hst => exact hi.release hm _ c.position

/-- A transition that is not current breaks it. -/
theorem Step.breaks_head {cause : Cause} {c c' : Timeline} (h : Step cause c c') (hw : c.WF)
    (hi : c.HeadInv) (hq : ¬ cause.Current c) : ¬ c'.HeadInv := by
  cases h with
  | preflightClaim hp hm =>
    rename_i k n old
    have hold : old ≠ .queued := by
      rintro rfl
      exact hq (stateOf_of_mark hm)
    intro hi'
    obtain ⟨hh, m, st, hr, hm', hf⟩ := hi'.active k rfl
    -- nobody was active, so whoever leads under this key is queued
    have ha := (hw.chosen n hp).1
    obtain ⟨m', hr', hm''⟩ := hi.queued k (List.mem_of_mem_head? hh) (by rw [ha]; simp)
    cases row_inj hr hr'
    have hne : m ≠ n := by
      rintro rfl
      exact hold (mark_inj hm hm'').2
    simp only [setMark_mark, if_neg hne] at hm'
    obtain ⟨-, rfl⟩ := mark_inj hm' hm''
    rcases hf with hf | hf | hf <;> cases hf
  | reconcileAccepted hr hm =>
    rename_i k n old
    have hold : old = .queued := by
      obtain ⟨k', hm'⟩ := stateOf_eq_some.mp (not_not.mp hq)
      exact (mark_inj hm hm').2
    subst hold
    intro hi'
    obtain ⟨m, hr', hm'⟩ := hi'.queued k (hw.pending n k _ hm (.inl rfl)).2
      (hi.active_ne_of_queued hr hm)
    cases row_inj hr hr'
    simp [setMark_mark] at hm'
  | reconcileRefused hr hm hst =>
    rcases hst with rfl | rfl <;> exact absurd trivial hq
  | _ => exact absurd trivial hq

end AgentsRemember.Submission.Timeline
