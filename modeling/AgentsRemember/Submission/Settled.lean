import AgentsRemember.Submission.Timeline

/-!
# Submission — Settled operations

When an operation is settled for good, and which transitions keep it
so. The invariant `Accounted` holds as long as no remembered record is
written after it settled: an operation that is not settled is still
the retained row of its key, and the active key names an operation
that is in flight.

`Step.keeps_settled` and `Step.breaks_settled` are the two directions:
a quiet transition leaves every settled operation alone, and one that
is not quiet changes the state of a settled operation.
-/

namespace AgentsRemember.Submission.Timeline

/-- Withdrawn, refused, or delivered with its head released. -/
def Settled (c : Timeline) (n : Nat) : Prop :=
  ∃ k st, c.mark n = some (k, st) ∧
    (st = .withdrawn ∨ st = .rejected ∨ st = .unsupported ∨
      st = .delivered ∧ ¬ c.Held n k)

/-- The remembered record is not settled, or the write changes nothing. -/
def Cause.Quiet (c : Timeline) : Cause → Prop
  | .plain => True
  | .preflightClaim n => ¬ c.Settled n
  | .possibleSend n => ¬ c.Settled n
  | .reconciled n st => c.Settled n → c.stateOf n = some st

/-- States an active operation is in. -/
def InFlight (st : SubmissionLifecycleState) : Prop :=
  st = .dispatching ∨ st = .delivered ∨ st = .unknown

/-- What is not settled is retained. -/
structure Accounted (c : Timeline) : Prop where
  unknown : ∀ n k, c.mark n = some (k, .unknown) → c.row k = some n
  active : ∀ k, c.active = some k →
    ∃ n st, c.row k = some n ∧ c.mark n = some (k, st) ∧ InFlight st

theorem stateOf_eq_some {c : Timeline} {n : Nat} {st : SubmissionLifecycleState} :
    c.stateOf n = some st ↔ ∃ k, c.mark n = some (k, st) := by
  cases hm : c.mark n with
  | none => simp [stateOf, hm]
  | some p =>
    obtain ⟨k, st'⟩ := p
    simp [stateOf, hm]

theorem stateOf_of_mark {c : Timeline} {n : Nat} {k : OperationKey}
    {st : SubmissionLifecycleState} (h : c.mark n = some (k, st)) : c.stateOf n = some st :=
  stateOf_eq_some.mpr ⟨k, h⟩

section
variable {c : Timeline} {k : OperationKey} {n : Nat} {st : SubmissionLifecycleState}

@[simp] theorem stateOf_setMark : (c.setMark n k st).stateOf n = some st := by
  simp [stateOf, setMark_mark]

theorem not_settled_of (hm : c.mark n = some (k, st))
    (h : st = .queued ∨ st = .dispatching ∨ st = .unknown ∨ st = .delivered ∧ c.Held n k) :
    ¬ c.Settled n := by
  rintro ⟨k', st', hm', hs⟩
  obtain ⟨rfl, rfl⟩ := mark_inj hm hm'
  rcases h with rfl | rfl | rfl | ⟨rfl, hh⟩ <;> simp at hs
  exact hs hh

/-- What is not settled is retained. -/
theorem Accounted.row_of_not_settled (h : c.Accounted) (hw : c.WF)
    (hm : c.mark n = some (k, st)) (hs : ¬ c.Settled n) : c.row k = some n := by
  cases st with
  | queued => exact (hw.pending n k _ hm (.inl rfl)).1
  | dispatching => exact (hw.pending n k _ hm (.inr rfl)).1
  | unknown => exact h.unknown n k hm
  | delivered =>
    by_cases hh : c.Held n k
    · exact hh.1
    · exact absurd ⟨k, _, hm, by simp [hh]⟩ hs
  | withdrawn => exact absurd ⟨k, _, hm, by simp⟩ hs
  | rejected => exact absurd ⟨k, _, hm, by simp⟩ hs
  | unsupported => exact absurd ⟨k, _, hm, by simp⟩ hs

/-- The active operation is never a settled one. -/
theorem Accounted.not_settled_of_active (h : c.Accounted) (ha : c.active = some k)
    (hr : c.row k = some n) : ¬ c.Settled n := by
  obtain ⟨m, st, hr', hm, hf⟩ := h.active k ha
  cases row_inj hr hr'
  refine not_settled_of hm ?_
  rcases hf with rfl | rfl | rfl
  · simp
  · exact .inr (.inr (.inr ⟨rfl, hr, .inl ha⟩))
  · simp

theorem Cause.Quiet.settled_or (h : (Cause.reconciled n st).Quiet c) {old}
    (hm : c.mark n = some (k, old)) : ¬ c.Settled n ∨ c.mark n = some (k, st) := by
  by_cases hs : c.Settled n
  · refine .inr ?_
    obtain ⟨k', hm'⟩ := stateOf_eq_some.mp (h hs)
    rw [hm', (mark_inj hm hm').1]
  · exact .inl hs

/-! ## The invariant, piece by piece -/

theorem Accounted.evict (h : c.Accounted) {row'} (he : c.Evicted row') :
    Accounted { c with row := row' } where
  unknown := by
    intro m k' hm
    have hr := h.unknown m k' hm
    cases hr' : row' k' with
    | none =>
      obtain ⟨-, k'', st, hm', hst⟩ := he.dropped k' m hr hr'
      obtain ⟨-, rfl⟩ := mark_inj hm hm'
      simp [evictableStates] at hst
    | some m' =>
      show row' k' = some m
      rw [hr', row_inj hr (he.sub _ _ hr')]
  active := by
    intro k' ha
    obtain ⟨m, st, hr, hm, hf⟩ := h.active k' ha
    exact ⟨m, st, WF.retained_of_evicted he (.inl ha) hr, hm, hf⟩

theorem Accounted.enrol (h : c.Accounted) (hw : c.WF) (hk : c.row k = none)
    (hst : st = .queued ∨ st = .unsupported) (keys : List OperationKey) :
    Accounted { (c.enrolled c.row k st) with timeline := keys } where
  unknown := by
    intro m k' hm
    simp only [enrolled] at hm ⊢
    split at hm
    · cases hm
      rcases hst with h | h <;> cases h
    · have hr := h.unknown m k' hm
      rw [if_neg (by rintro rfl; rw [hk] at hr; cases hr)]
      exact hr
  active := by
    intro k' ha
    obtain ⟨m, st', hr, hm, hf⟩ := h.active k' ha
    refine ⟨m, st', ?_, ?_, hf⟩
    · simp only [enrolled]
      rw [if_neg (by rintro rfl; rw [hk] at hr; cases hr)]
      exact hr
    · simp only [enrolled]
      rw [if_neg (hw.mark_ne_fresh hm)]
      exact hm

/-- A write on a retained row, where the key is not active afterwards
unless the state says so. -/
theorem Accounted.write (h : c.Accounted) {old} (hr : c.row k = some n)
    (hm : c.mark n = some (k, old)) (act : Option OperationKey)
    (ha : ∀ k', act = some k' → k' = k ∧ InFlight st ∨ k' ≠ k ∧ c.active = some k')
    (keys : List OperationKey) (p : Position) (events : List HistoryEvent) :
    Accounted { (c.setMark n k st) with
      active := act, timeline := keys, position := p, history := events } where
  unknown := by
    intro m k' hm'
    simp only [setMark_mark] at hm'
    split at hm'
    · rename_i hmn
      cases hm'
      exact hmn ▸ hr
    · exact h.unknown m k' hm'
  active := by
    intro k' ha'
    rcases ha k' ha' with ⟨rfl, hf⟩ | ⟨hne, ha'⟩
    · exact ⟨n, st, hr, by simp [setMark_mark], hf⟩
    · obtain ⟨m, st', hr', hm', hf⟩ := h.active k' ha'
      refine ⟨m, st', hr', ?_, hf⟩
      simp only [setMark_mark]
      rw [if_neg]
      · exact hm'
      · rintro rfl
        exact hne (mark_inj hm hm').1.symm

theorem active_of_release {k'} (h : (if c.active = some k then none else c.active) = some k') :
    k' ≠ k ∧ c.active = some k' := by
  split at h
  · cases h
  · rename_i hne
    exact ⟨by rintro rfl; exact hne h, h⟩

theorem Accounted.release (h : c.Accounted) {old} (hr : c.row k = some n)
    (hm : c.mark n = some (k, old)) (p : Position) :
    Accounted { ((c.setMark n k st).release k) with position := p } :=
  h.write hr hm _ (fun _ ha => .inr (active_of_release ha)) _ p _

/-- A write that leaves the active slot alone, with an in-flight state. -/
theorem Accounted.rewrite (h : c.Accounted) {old} (hr : c.row k = some n)
    (hm : c.mark n = some (k, old)) (hf : InFlight st) (p : Position) :
    Accounted { (c.setMark n k st) with position := p } := by
  refine h.write hr hm _ (fun k' ha => ?_) _ p _
  by_cases hk : k' = k
  · exact .inl ⟨hk, hf⟩
  · exact .inr ⟨hk, ha⟩

end

/-- Quiet transitions keep the operations accounted for. -/
theorem Step.accounted {cause : Cause} {c c' : Timeline} (h : Step cause c c') (hw : c.WF)
    (hc : c.Accounted) (hq : cause.Quiet c) : c'.Accounted := by
  cases h with
  | stay => exact hc
  | evict he => exact hc.evict he
  | join he hk => exact (hc.evict he).enrol (hw.evict he) hk (.inl rfl) _
  | refuse he hk => exact (hc.evict he).enrol (hw.evict he) hk (.inr rfl) _
  | withdraw hr hm =>
    refine hc.write hr hm c.active (fun k' ha => ?_) _ _ _
    obtain ⟨m, st, hr', hm', hf⟩ := hc.active k' ha
    refine .inr ⟨?_, ha⟩
    rintro rfl
    cases row_inj hr hr'
    obtain ⟨-, rfl⟩ := mark_inj hm hm'
    rcases hf with hf | hf | hf <;> cases hf
  | settle hr hm hold hst => exact hc.release hr hm c.position
  | choose hp hh hr hm ha => exact ⟨hc.unknown, hc.active⟩
  | unchoose hp => exact ⟨hc.unknown, hc.active⟩
  | claim hp hh hm ha =>
    have hr := (hw.pending _ _ _ hm (.inl rfl)).1
    refine hc.write hr hm _ (fun k' ha' => .inl ⟨?_, .inl rfl⟩) _ _ _
    exact (Option.some.inj ha').symm
  | answer hp => exact ⟨hc.unknown, hc.active⟩
  | requeue hp hm ha =>
    have hr := (hw.pending _ _ _ hm (.inr rfl)).1
    exact hc.write hr hm none (fun k' ha' => by cases ha') _ _ _
  | abandon hp hm hst => exact ⟨hc.unknown, hc.active⟩
  | hold hp hr hm ha hst => exact hc.rewrite hr hm (hst.elim (.inr ∘ .inl) (.inr ∘ .inr)) _
  | finish hp hr hm ha hst => exact hc.release hr hm _
  | preflightClaim hp hm =>
    have hr := hc.row_of_not_settled hw hm hq
    refine hc.write hr hm _ (fun k' ha' => .inl ⟨?_, .inr (.inr rfl)⟩) _ _ _
    exact (Option.some.inj ha').symm
  | possibleSend hp hm =>
    exact hc.rewrite (hc.row_of_not_settled hw hm hq) hm (.inr (.inr rfl)) _
  | reconcileAccepted hr hm => exact hc.rewrite hr hm (.inr (.inl rfl)) c.position
  | reconcileRefused hr hm hst => exact hc.release hr hm c.position

/-! ## Settled operations under one transition -/

/-- A settled operation stays settled when its record is not written and
its key gains neither a row nor a hold. -/
theorem Settled.of_frame {c c' : Timeline} {n : Nat} (h : c.Settled n)
    (hm : c'.mark n = c.mark n) (hh : ∀ k, c'.Held n k → c.Held n k) : c'.Settled n := by
  obtain ⟨k, st, hmark, hst⟩ := h
  refine ⟨k, st, hm.trans hmark, ?_⟩
  rcases hst with hst | hst | hst | ⟨hst, hheld⟩
  · exact .inl hst
  · exact .inr (.inl hst)
  · exact .inr (.inr (.inl hst))
  · exact .inr (.inr (.inr ⟨hst, fun h' => hheld (hh k h')⟩))

theorem Settled.of_write {c : Timeline} {m n : Nat} {k : OperationKey}
    {st : SubmissionLifecycleState} (h : c.Settled m) (hr : c.row k = some n)
    (hn : ¬ c.Settled n ∨ c.mark n = some (k, st)) (act : Option OperationKey)
    (ha : ∀ k', act = some k' → k' = k ∧ ¬ c.Settled n ∨ c.Pinned k')
    (keys : List OperationKey) (hk : ∀ k' ∈ keys, c.Pinned k') (p : Position)
    (events : List HistoryEvent) :
    Settled { (c.setMark n k st) with
      active := act, timeline := keys, position := p, history := events } m ∧
    (c.setMark n k st).mark m = c.mark m := by
  have hmark : (c.setMark n k st).mark m = c.mark m := by
    rw [setMark_mark]
    split
    · rename_i hmn
      subst hmn
      rcases hn with hn | hn
      · exact absurd h hn
      · exact hn.symm
    · rfl
  refine ⟨h.of_frame hmark ?_, hmark⟩
  rintro k' ⟨hr', hp⟩
  refine ⟨hr', ?_⟩
  rcases hp with hp | hp
  · rcases ha k' hp with ⟨rfl, hns⟩ | hp
    · cases row_inj hr hr'
      exact absurd h hns
    · exact hp
  · exact hk k' hp

theorem pinned_of_erase {c : Timeline} {k k' : OperationKey} (h : k' ∈ c.timeline.erase k) :
    c.Pinned k' :=
  .inr (List.mem_of_mem_erase h)

theorem Settled.of_release {c : Timeline} {m n : Nat} {k : OperationKey}
    {st : SubmissionLifecycleState} (h : c.Settled m) (hr : c.row k = some n)
    (hn : ¬ c.Settled n ∨ c.mark n = some (k, st)) (p : Position) :
    Settled { ((c.setMark n k st).release k) with position := p } m ∧
    (c.setMark n k st).mark m = c.mark m :=
  h.of_write hr hn _ (fun _ ha => .inr (.inl (active_of_release ha).2)) _
    (fun _ => pinned_of_erase) p _

theorem Settled.of_rewrite {c : Timeline} {m n : Nat} {k : OperationKey}
    {st : SubmissionLifecycleState} (h : c.Settled m) (hr : c.row k = some n)
    (hn : ¬ c.Settled n ∨ c.mark n = some (k, st)) (p : Position) :
    Settled { (c.setMark n k st) with position := p } m ∧
    (c.setMark n k st).mark m = c.mark m :=
  h.of_write hr hn _ (fun _ ha => .inr (.inl ha)) _ (fun _ hk => .inr hk) p _

theorem Settled.of_enrol {c : Timeline} {m : Nat} (h : c.Settled m) (hw : c.WF) {row' k}
    (he : c.Evicted row') (st : SubmissionLifecycleState) (keys : List OperationKey)
    (hk : ∀ k' ∈ keys, k' = k ∨ c.Pinned k') :
    Settled { (c.enrolled row' k st) with timeline := keys } m ∧
    (c.enrolled row' k st).mark m = c.mark m := by
  obtain ⟨k₀, st₀, hm₀, -⟩ := id h
  have hne := hw.mark_ne_fresh hm₀
  have hmark : (c.enrolled row' k st).mark m = c.mark m := by
    simp only [enrolled]
    rw [if_neg hne]
  refine ⟨h.of_frame hmark ?_, hmark⟩
  rintro k' ⟨hr', hp⟩
  simp only [enrolled] at hr'
  split at hr'
  · exact absurd (Option.some.inj hr').symm hne
  · rename_i hkk
    refine ⟨he.sub _ _ hr', ?_⟩
    rcases hp with hp | hp
    · exact .inl hp
    · exact (hk k' hp).resolve_left fun he' => hkk he'.symm

/-- A quiet transition leaves every settled operation where it is. -/
theorem Step.keeps_settled {cause : Cause} {c c' : Timeline} (h : Step cause c c')
    (hw : c.WF) (hc : c.Accounted) (hq : cause.Quiet c) {m : Nat} (hs : c.Settled m) :
    c'.Settled m ∧ c'.mark m = c.mark m := by
  cases h with
  | stay => exact ⟨hs, rfl⟩
  | evict he => exact ⟨hs.of_frame rfl fun k' hh => ⟨he.sub _ _ hh.1, hh.2⟩, rfl⟩
  | join he hk =>
    refine hs.of_enrol hw he _ _ fun k' hk' => ?_
    rcases List.mem_append.mp hk' with hk' | hk'
    · exact .inr (.inr hk')
    · exact .inl (List.mem_singleton.mp hk')
  | refuse he hk => exact hs.of_enrol hw he _ _ fun k' hk' => .inr (.inr hk')
  | withdraw hr hm =>
    exact hs.of_write hr (.inl (not_settled_of hm (.inl rfl))) _ (fun _ ha => .inr (.inl ha)) _
      (fun _ => pinned_of_erase) _ _
  | settle hr hm hold hst =>
    refine hs.of_release hr (.inl (not_settled_of hm ?_)) c.position
    rcases hold with rfl | ⟨rfl, ha⟩
    · simp
    · exact .inr (.inr (.inr ⟨rfl, hr, .inl ha⟩))
  | choose hp hh hr hm ha => exact ⟨hs.of_frame rfl fun _ hh => hh, rfl⟩
  | unchoose hp => exact ⟨hs.of_frame rfl fun _ hh => hh, rfl⟩
  | claim hp hh hm ha =>
    have hns := not_settled_of hm (.inl rfl)
    exact hs.of_write (hw.pending _ _ _ hm (.inl rfl)).1 (.inl hns) _
      (fun k' ha' => .inl ⟨(Option.some.inj ha').symm, hns⟩) _ (fun _ hk => .inr hk) _ _
  | answer hp => exact ⟨hs.of_frame rfl fun _ hh => hh, rfl⟩
  | requeue hp hm ha =>
    exact hs.of_write (hw.pending _ _ _ hm (.inr rfl)).1
      (.inl (not_settled_of hm (.inr (.inl rfl)))) none (fun _ ha' => by cases ha') _
      (fun _ hk => .inr hk) _ _
  | abandon hp hm hst => exact ⟨hs.of_frame rfl fun _ hh => hh, rfl⟩
  | hold hp hr hm ha hst => exact hs.of_rewrite hr (.inl (hc.not_settled_of_active ha hr)) _
  | finish hp hr hm ha hst => exact hs.of_release hr (.inl (hc.not_settled_of_active ha hr)) _
  | preflightClaim hp hm =>
    exact hs.of_write (hc.row_of_not_settled hw hm hq) (.inl hq) _
      (fun k' ha' => .inl ⟨(Option.some.inj ha').symm, hq⟩) _ (fun _ hk => .inr hk) _ _
  | possibleSend hp hm => exact hs.of_rewrite (hc.row_of_not_settled hw hm hq) (.inl hq) _
  | reconcileAccepted hr hm => exact hs.of_rewrite hr (hq.settled_or hm) c.position
  | reconcileRefused hr hm hst => exact hs.of_release hr (hq.settled_or hm) c.position

/-- A transition that is not quiet moves a settled operation. -/
theorem Step.breaks_settled {cause : Cause} {c c' : Timeline} (h : Step cause c c')
    (hq : ¬ cause.Quiet c) : ∃ n, c.Settled n ∧ c'.stateOf n ≠ c.stateOf n := by
  cases h with
  | preflightClaim hp hm =>
    rename_i k n old
    have hs : c.Settled n := not_not.mp hq
    refine ⟨n, hs, ?_⟩
    obtain ⟨k', st, hm', hst⟩ := hs
    show (c.setMark n k .unknown).stateOf n ≠ _
    rw [stateOf_of_mark hm', stateOf_setMark]
    rintro ⟨⟩
    simp at hst
  | possibleSend hp hm =>
    rename_i k n old
    have hs : c.Settled n := not_not.mp hq
    refine ⟨n, hs, ?_⟩
    obtain ⟨k', st, hm', hst⟩ := hs
    show (c.setMark n k .unknown).stateOf n ≠ _
    rw [stateOf_of_mark hm', stateOf_setMark]
    rintro ⟨⟩
    simp at hst
  | reconcileAccepted hr hm =>
    rename_i k n old
    obtain ⟨hs, hne⟩ := Classical.not_imp.mp hq
    refine ⟨n, hs, ?_⟩
    rw [stateOf_setMark]
    exact fun he => hne he.symm
  | reconcileRefused hr hm hst =>
    rename_i k n old st
    obtain ⟨hs, hne⟩ := Classical.not_imp.mp hq
    refine ⟨n, hs, ?_⟩
    show (c.setMark n k st).stateOf n ≠ _
    rw [stateOf_setMark]
    exact fun he => hne he.symm
  | _ => exact absurd trivial hq

end AgentsRemember.Submission.Timeline
