import AgentsRemember.Submission.Timeline

/-!
# Submission — What the adapter sees

The history of one authority, as the adapter and the withdrawing
callers saw it. `Orderly` reads each invocation against what came
before it: no other call is open, no earlier invocation was of a later
operation, the operation was never withdrawn, and if it was invoked
before then a certified requeue came after.

`Ordered` ties the history to the timeline. Its induction needs nothing
but the well-formedness of the model, so it holds in every run.
-/

namespace AgentsRemember.Submission

/-- The call still in flight at the end of a history. -/
def openCall (events : List HistoryEvent) : Option Nat :=
  events.foldl (fun call e => match e with
    | .invoked n => some n
    | .answered _ => none
    | _ => call) none

/-- Whether the last invocation of `n` was not followed by a requeue. -/
def outstanding (n : Nat) (events : List HistoryEvent) : Bool :=
  events.foldl (fun b e => match e with
    | .invoked m => b || m == n
    | .requeued m => b && m != n
    | _ => b) false

/-- What an invocation of `n` finds behind it. -/
structure MayInvoke (n : Nat) (before : List HistoryEvent) : Prop where
  alone : openCall before = none
  inOrder : ∀ m, .invoked m ∈ before → m ≤ n
  notWithdrawn : .withdrawn n ∉ before
  once : outstanding n before = false

/-- Every invocation is allowed by what came before it. -/
def Orderly (events : List HistoryEvent) : Prop :=
  ∀ before n after, events = before ++ .invoked n :: after → MayInvoke n before

theorem orderly_nil : Orderly [] := by
  intro before n after h
  cases before <;> cases h

theorem orderly_snoc {events : List HistoryEvent} {e : HistoryEvent} (h : Orderly events)
    (he : ∀ n, e = .invoked n → MayInvoke n events) : Orderly (events ++ [e]) := by
  intro before n after hs
  rcases List.eq_nil_or_concat after with rfl | ⟨after, e', rfl⟩
  · obtain ⟨rfl, hsingle⟩ := List.append_inj' hs rfl
    exact he n (by simpa using hsingle)
  · refine h before n after ?_
    have hs' : events ++ [e] = (before ++ .invoked n :: after) ++ [e'] := by
      simpa using hs
    exact (List.append_inj' hs' rfl).1

section
variable (events : List HistoryEvent) (n m : Nat)

@[simp] theorem openCall_invoked : openCall (events ++ [.invoked n]) = some n := by
  simp [openCall]

@[simp] theorem openCall_answered : openCall (events ++ [.answered n]) = none := by
  simp [openCall]

@[simp] theorem openCall_requeued :
    openCall (events ++ [.requeued n]) = openCall events := by
  simp [openCall]

@[simp] theorem openCall_withdrawn :
    openCall (events ++ [.withdrawn n]) = openCall events := by
  simp [openCall]

@[simp] theorem outstanding_invoked :
    outstanding n (events ++ [.invoked m]) = (outstanding n events || m == n) := by
  simp [outstanding]

@[simp] theorem outstanding_answered :
    outstanding n (events ++ [.answered m]) = outstanding n events := by
  simp [outstanding]

@[simp] theorem outstanding_requeued :
    outstanding n (events ++ [.requeued m]) = (outstanding n events && m != n) := by
  simp [outstanding]

@[simp] theorem outstanding_withdrawn :
    outstanding n (events ++ [.withdrawn m]) = outstanding n events := by
  simp [outstanding]

end

/-- Only an invocation makes an operation outstanding. -/
theorem invoked_of_outstanding {n : Nat} {events : List HistoryEvent}
    (h : outstanding n events = true) : .invoked n ∈ events := by
  induction events using List.reverseRecOn with
  | nil => cases h
  | append_singleton events e ih =>
    cases e with
    | invoked m =>
      simp only [outstanding_invoked, Bool.or_eq_true, beq_iff_eq] at h
      rcases h with h | rfl
      · exact List.mem_append_left _ (ih h)
      · simp
    | answered m => exact List.mem_append_left _ (ih (by simpa using h))
    | requeued m =>
      simp only [outstanding_requeued, Bool.and_eq_true] at h
      exact List.mem_append_left _ (ih h.1)
    | withdrawn m => exact List.mem_append_left _ (ih (by simpa using h))

namespace Timeline

/-- How the history and the timeline constrain each other. -/
structure Ordered (c : Timeline) : Prop where
  orderly : Orderly c.history
  invoked : ∀ n, .invoked n ∈ c.history → n ≤ c.count
  withdrawn : ∀ n, .withdrawn n ∈ c.history → n ≤ c.count
  pending : ∀ m n k st, .invoked m ∈ c.history → c.mark n = some (k, st) → Pending st → m ≤ n
  gone : ∀ n k st, .withdrawn n ∈ c.history → c.mark n = some (k, st) → ¬ Pending st
  unsent : ∀ n k, c.mark n = some (k, .queued) → outstanding n c.history = false
  calling : ∀ n, openCall c.history = some n → c.position = .calling n

namespace Ordered

variable {c : Timeline} {k : OperationKey} {n : Nat}

/-- Evictions, releases and the active slot do not enter. -/
theorem of_frame (h : c.Ordered) {c' : Timeline} (hm : c'.mark = c.mark)
    (hc : c'.count = c.count) (hh : c'.history = c.history)
    (hp : ∀ m, c.position = .calling m → c'.position = .calling m) : c'.Ordered where
  orderly := hh ▸ h.orderly
  invoked := by
    rw [hh, hc]
    exact h.invoked
  withdrawn := by
    rw [hh, hc]
    exact h.withdrawn
  pending := by
    rw [hh, hm]
    exact h.pending
  gone := by
    rw [hh, hm]
    exact h.gone
  unsent := by
    rw [hh, hm]
    exact h.unsent
  calling := by
    rw [hh]
    exact fun m ho => hp m (h.calling m ho)

/-- Writing a state nothing is sent from. -/
theorem write (h : c.Ordered) {st} (hst : ¬ Pending st) : (c.setMark n k st).Ordered where
  orderly := h.orderly
  invoked := h.invoked
  withdrawn := h.withdrawn
  pending := by
    intro i m k' st' hi hm hp
    rw [setMark_mark] at hm
    split at hm
    · cases hm
      exact absurd hp hst
    · exact h.pending i m k' st' hi hm hp
  gone := by
    intro m k' st' hw hm hp
    rw [setMark_mark] at hm
    split at hm
    · cases hm
      exact hst hp
    · exact h.gone m k' st' hw hm hp
  unsent := by
    intro m k' hm
    rw [setMark_mark] at hm
    split at hm
    · cases hm
      exact absurd (.inl rfl) hst
    · exact h.unsent m k' hm
  calling := h.calling

theorem enrol (h : c.Ordered) (row' k st) : (c.enrolled row' k st).Ordered where
  orderly := h.orderly
  invoked := fun m hm => Nat.le_succ_of_le (h.invoked m hm)
  withdrawn := fun m hm => Nat.le_succ_of_le (h.withdrawn m hm)
  pending := by
    intro i m k' st' hi hm hp
    simp only [enrolled] at hm
    split at hm
    · have := h.invoked i hi
      omega
    · exact h.pending i m k' st' hi hm hp
  gone := by
    intro m k' st' hw hm
    simp only [enrolled] at hm
    split at hm
    · have := h.withdrawn m hw
      omega
    · exact h.gone m k' st' hw hm
  unsent := by
    intro m k' hm
    simp only [enrolled] at hm
    split at hm
    · rename_i hmc
      cases ho : outstanding m c.history with
      | false => exact ho
      | true =>
        have := h.invoked m (invoked_of_outstanding ho)
        omega
    · exact h.unsent m k' hm
  calling := h.calling

/-- An event other than an invocation, at a position that stays. -/
theorem withdraw (h : c.Ordered) (hw : c.WF) {st} (hm : c.mark n = some (k, st))
    (hst : ¬ Pending st) : Ordered { c with history := c.history ++ [.withdrawn n] } where
  orderly := orderly_snoc h.orderly fun m he => by cases he
  invoked := fun m hi => h.invoked m (by simpa using hi)
  withdrawn := by
    intro m hwd
    rcases List.mem_append.mp hwd with hwd | hwd
    · exact h.withdrawn m hwd
    · cases List.mem_singleton.mp hwd
      exact hw.bound n _ hm
  pending := fun i m k' st' hi => h.pending i m k' st' (by simpa using hi)
  gone := by
    intro m k' st' hwd hm'
    rcases List.mem_append.mp hwd with hwd | hwd
    · exact h.gone m k' st' hwd hm'
    · cases List.mem_singleton.mp hwd
      rw [← (mark_inj hm hm').2]
      exact hst
  unsent := by
    intro m k' hm'
    rw [outstanding_withdrawn]
    exact h.unsent m k' hm'
  calling := by
    intro m ho
    rw [openCall_withdrawn] at ho
    exact h.calling m ho

theorem answer (h : c.Ordered) (p : Position) :
    Ordered { c with position := p, history := c.history ++ [.answered n] } where
  orderly := orderly_snoc h.orderly fun m he => by cases he
  invoked := fun m hi => h.invoked m (by simpa using hi)
  withdrawn := fun m hwd => h.withdrawn m (by simpa using hwd)
  pending := fun i m k' st' hi => h.pending i m k' st' (by simpa using hi)
  gone := fun m k' st' hwd => h.gone m k' st' (by simpa using hwd)
  unsent := by
    intro m k' hm'
    rw [outstanding_answered]
    exact h.unsent m k' hm'
  calling := by
    intro m ho
    rw [openCall_answered] at ho
    cases ho

/-- The claimed head is the oldest operation anything may be sent from. -/
theorem head_le (hw : c.WF) (hh : c.timeline.head? = some k) (hm : c.mark n = some (k, .queued))
    {m k' st} (hm' : c.mark m = some (k', st)) (hp : Pending st) : n ≤ m := by
  have hr := (hw.pending n k _ hm (.inl rfl)).1
  obtain ⟨hr', ht'⟩ := hw.pending m k' st hm' hp
  cases hks : c.timeline with
  | nil =>
    rw [hks] at hh
    cases hh
  | cons a ks =>
    rw [hks] at hh ht'
    cases hh
    rcases List.mem_cons.mp ht' with rfl | ht'
    · exact Nat.le_of_eq (row_inj hr hr')
    · have hord := hw.order
      rw [hks, List.pairwise_cons] at hord
      exact Nat.le_of_lt (hord.1 k' ht' n m hr hr')

theorem claim (h : c.Ordered) (hw : c.WF) (hp : c.position = .chosen n)
    (hh : c.timeline.head? = some k) (hm : c.mark n = some (k, .queued)) :
    Ordered { (c.setMark n k .dispatching) with
      active := some k, position := .calling n, history := c.history ++ [.invoked n] } where
  orderly := by
    refine orderly_snoc h.orderly fun m he => ?_
    cases he
    constructor
    · cases ho : openCall c.history with
      | none => rfl
      | some m =>
        have := h.calling m ho
        rw [hp] at this
        cases this
    · exact fun m hi => h.pending m n k _ hi hm (.inl rfl)
    · exact fun hwd => h.gone n k _ hwd hm (.inl rfl)
    · exact h.unsent n k hm
  invoked := by
    intro m hi
    rcases List.mem_append.mp hi with hi | hi
    · exact h.invoked m hi
    · cases List.mem_singleton.mp hi
      exact hw.bound n _ hm
  withdrawn := fun m hwd => h.withdrawn m (by simpa using hwd)
  pending := by
    intro i m k' st' hi hm' hpend
    -- the record `m` was already pending before the claim
    obtain ⟨k'', st'', hm'', hpend''⟩ : ∃ k'' st'', c.mark m = some (k'', st'') ∧
        Pending st'' := by
      simp only [setMark_mark] at hm'
      split at hm'
      · rename_i hmn
        exact ⟨k, .queued, hmn ▸ hm, .inl rfl⟩
      · exact ⟨k', st', hm', hpend⟩
    rcases List.mem_append.mp hi with hi | hi
    · exact h.pending i m k'' st'' hi hm'' hpend''
    · cases List.mem_singleton.mp hi
      exact head_le hw hh hm hm'' hpend''
  gone := by
    intro m k' st' hwd hm' hpend
    have hwd : .withdrawn m ∈ c.history := by simpa using hwd
    simp only [setMark_mark] at hm'
    split at hm'
    · rename_i hmn
      exact h.gone n k _ (hmn ▸ hwd) hm (.inl rfl)
    · exact h.gone m k' st' hwd hm' hpend
  unsent := by
    intro m k' hm'
    simp only [setMark_mark] at hm'
    split at hm'
    · cases hm'
    · rename_i hmn
      simp [h.unsent m k' hm', Ne.symm hmn]
  calling := by
    intro m ho
    rw [openCall_invoked] at ho
    cases ho
    rfl

theorem requeue (h : c.Ordered) (hp : c.position = .called n)
    (hm : c.mark n = some (k, .dispatching)) :
    Ordered { (c.setMark n k .queued) with
      active := none, position := .free, history := c.history ++ [.requeued n] } where
  orderly := orderly_snoc h.orderly fun m he => by cases he
  invoked := fun m hi => h.invoked m (by simpa using hi)
  withdrawn := fun m hwd => h.withdrawn m (by simpa using hwd)
  pending := by
    intro i m k' st' hi hm' hpend
    have hi : .invoked i ∈ c.history := by simpa using hi
    simp only [setMark_mark] at hm'
    split at hm'
    · rename_i hmn
      exact h.pending i m k _ hi (hmn ▸ hm) (.inr rfl)
    · exact h.pending i m k' st' hi hm' hpend
  gone := by
    intro m k' st' hwd hm' hpend
    have hwd : .withdrawn m ∈ c.history := by simpa using hwd
    simp only [setMark_mark] at hm'
    split at hm'
    · rename_i hmn
      exact h.gone n k _ (hmn ▸ hwd) hm (.inr rfl)
    · exact h.gone m k' st' hwd hm' hpend
  unsent := by
    intro m k' hm'
    simp only [setMark_mark] at hm'
    split at hm'
    · rename_i hmn
      simp [hmn]
    · simp [h.unsent m k' hm']
  calling := by
    intro m ho
    rw [openCall_requeued] at ho
    have := h.calling m ho
    rw [hp] at this
    cases this

end Ordered

/-- Every transition keeps the history ordered. -/
theorem Step.ordered {cause : Cause} {c c' : Timeline} (h : Step cause c c') (hw : c.WF)
    (ho : c.Ordered) : c'.Ordered := by
  have hterm : ∀ st, st = .delivered ∨ st = .rejected ∨ st = .unsupported ∨ st = .unknown ∨
      st = .withdrawn → ¬ Pending st := by
    rintro st (rfl | rfl | rfl | rfl | rfl) <;> rintro (h | h) <;> cases h
  cases h with
  | stay => exact ho
  | evict he => exact ho.of_frame rfl rfl rfl fun _ hp => hp
  | join he hk =>
    rename_i row' k
    exact (ho.enrol row' k .queued).of_frame rfl rfl rfl fun _ hp => hp
  | refuse he hk => exact ho.enrol _ _ _
  | withdraw hr hm =>
    rename_i k n
    have hst := hterm .withdrawn (by simp)
    have hmark : (c.setMark n k .withdrawn).mark n = some (k, .withdrawn) := by
      simp [setMark_mark]
    exact ((ho.write hst).withdraw (hw.write hm hst) hmark hst).of_frame rfl rfl rfl
      fun _ hp => hp
  | settle hr hm hold hst =>
    refine (ho.write (hterm _ ?_)).of_frame rfl rfl rfl fun _ hp => hp
    rcases hst with rfl | rfl <;> simp
  | choose hp hh hr hm ha =>
    exact ho.of_frame rfl rfl rfl fun m hm => absurd (hp.symm.trans hm) (by simp)
  | unchoose hp =>
    exact ho.of_frame rfl rfl rfl fun m hm => absurd (hp.symm.trans hm) (by simp)
  | claim hp hh hm ha => exact ho.claim hw hp hh hm
  | answer hp => exact ho.answer _
  | requeue hp hm ha => exact ho.requeue hp hm
  | abandon hp hm hst =>
    exact ho.of_frame rfl rfl rfl fun m hm => absurd (hp.symm.trans hm) (by simp)
  | hold hp hr hm ha hst =>
    refine (ho.write (hterm _ ?_)).of_frame rfl rfl rfl
      fun m hm => absurd (hp.symm.trans hm) (by simp)
    rcases hst with rfl | rfl <;> simp
  | finish hp hr hm ha hst =>
    refine (ho.write (hterm _ ?_)).of_frame rfl rfl rfl
      fun m hm => absurd (hp.symm.trans hm) (by simp)
    rcases hst with rfl | rfl | rfl <;> simp
  | preflightClaim hp hm =>
    exact (ho.write (hterm .unknown (by simp))).of_frame rfl rfl rfl
      fun m hm => absurd (hp.symm.trans hm) (by simp)
  | possibleSend hp hm =>
    exact (ho.write (hterm .unknown (by simp))).of_frame rfl rfl rfl
      fun m hm => absurd (hp.symm.trans hm) (by simp)
  | reconcileAccepted hr hm => exact ho.write (hterm .delivered (by simp))
  | reconcileRefused hr hm hst =>
    refine (ho.write (hterm _ ?_)).of_frame rfl rfl rfl fun _ hp => hp
    rcases hst with rfl | rfl <;> simp

end Timeline

end AgentsRemember.Submission
