import AgentsRemember.Submission.Authority

/-!
# Submission — Timeline

The abstract model of the submission authority: what the component is
for, stripped of texts, stamps and receipts. An operation is an ordinal
with a key and a lifecycle state; the retained rows, the timeline and
the active slot speak of keys, because that is how the code addresses
them, and two ordinals may share a key once the older row is evicted.

A transition of the model names its `Cause` when it writes a record
that a coroutine remembered from before an `await`; the other writes
re-read what they write under the same lock. `WF` collects what every
transition preserves, whatever its cause.
-/

namespace AgentsRemember.Submission

/-- Where the dispatcher stands, as far as the timeline can tell. -/
inductive Position where
  /-- it remembers no record -/
  | free
  /-- it chose the head and is asking the adapter's preflight -/
  | chosen (n : Nat)
  /-- the adapter's method is in flight -/
  | calling (n : Nat)
  /-- the method has answered, the answer is not applied yet -/
  | called (n : Nat)

/-- Ordinals, keys and states. -/
@[ext] structure Timeline where
  /-- ordinals minted so far -/
  count : Nat
  mark : Nat → Option (OperationKey × SubmissionLifecycleState)
  row : OperationKey → Option Nat
  timeline : List OperationKey
  active : Option OperationKey
  position : Position
  history : List HistoryEvent

namespace Timeline

/-- The state of an ordinal. -/
def stateOf (c : Timeline) (n : Nat) : Option SubmissionLifecycleState :=
  (c.mark n).map Prod.snd

/-- The key may not be evicted. -/
def Pinned (c : Timeline) (k : OperationKey) : Prop :=
  c.active = some k ∨ k ∈ c.timeline

/-- The ordinal is the retained row of its key, and dispatch needs it. -/
def Held (c : Timeline) (n : Nat) (k : OperationKey) : Prop :=
  c.row k = some n ∧ c.Pinned k

/-- An ordinal, marked. -/
def setMark (c : Timeline) (n : Nat) (k : OperationKey) (st : SubmissionLifecycleState) :
    Timeline :=
  { c with mark := fun m => if m = n then some (k, st) else c.mark m }

/-- A key leaves the timeline. -/
def release (c : Timeline) (k : OperationKey) : Timeline :=
  { c with
    active := if c.active = some k then none else c.active
    timeline := c.timeline.erase k }

/-- Rows eviction may leave: only unpinned terminal rows are dropped. -/
structure Evicted (c : Timeline) (row' : OperationKey → Option Nat) : Prop where
  sub : ∀ k n, row' k = some n → c.row k = some n
  dropped : ∀ k n, c.row k = some n → row' k = none →
    ¬ c.Pinned k ∧ ∃ k' st, c.mark n = some (k', st) ∧ st ∈ evictableStates

/-- Why a remembered record is written. -/
inductive Cause where
  | plain
  /-- a preflight that may have sent -/
  | preflightClaim (n : Nat)
  /-- a method exception after a possible send -/
  | possibleSend (n : Nat)
  /-- a reconciliation answer, deciding for `st` -/
  | reconciled (n : Nat) (st : SubmissionLifecycleState)

/-- Enrolling a fresh operation under `k`, over the rows left. -/
def enrolled (c : Timeline) (row' : OperationKey → Option Nat) (k : OperationKey)
    (st : SubmissionLifecycleState) : Timeline :=
  { c with
    count := c.count + 1
    mark := fun m => if m = c.count + 1 then some (k, st) else c.mark m
    row := fun k' => if k = k' then some (c.count + 1) else row' k' }

/-- The transitions of the model. -/
inductive Step : Cause → Timeline → Timeline → Prop where
  | stay (c : Timeline) : Step .plain c c
  | evict {c : Timeline} {row'} (h : c.Evicted row') : Step .plain c { c with row := row' }
  | join {c : Timeline} {row' k} (h : c.Evicted row') (hk : row' k = none) :
      Step .plain c { (c.enrolled row' k .queued) with timeline := c.timeline ++ [k] }
  | refuse {c : Timeline} {row' k} (h : c.Evicted row') (hk : row' k = none) :
      Step .plain c (c.enrolled row' k .unsupported)
  | withdraw {c : Timeline} {k n} (hr : c.row k = some n) (hm : c.mark n = some (k, .queued)) :
      Step .plain c { (c.setMark n k .withdrawn) with
        timeline := c.timeline.erase k
        history := c.history ++ [.withdrawn n] }
  /-- an operator resolution or a completion releases the head -/
  | settle {c : Timeline} {k n old st} (hr : c.row k = some n) (hm : c.mark n = some (k, old))
      (hold : old = .unknown ∨ old = .delivered ∧ c.active = some k)
      (hst : st = .delivered ∨ st = .rejected) :
      Step .plain c ((c.setMark n k st).release k)
  | choose {c : Timeline} {k n} (hp : c.position = .free) (hh : c.timeline.head? = some k)
      (hr : c.row k = some n) (hm : c.mark n = some (k, .queued)) (ha : c.active = none) :
      Step .plain c { c with position := .chosen n }
  | unchoose {c : Timeline} {n} (hp : c.position = .chosen n) :
      Step .plain c { c with position := .free }
  | claim {c : Timeline} {k n} (hp : c.position = .chosen n) (hh : c.timeline.head? = some k)
      (hm : c.mark n = some (k, .queued)) (ha : c.active = none) :
      Step .plain c { (c.setMark n k .dispatching) with
        active := some k
        position := .calling n
        history := c.history ++ [.invoked n] }
  | answer {c : Timeline} {n} (hp : c.position = .calling n) :
      Step .plain c { c with position := .called n, history := c.history ++ [.answered n] }
  | requeue {c : Timeline} {k n} (hp : c.position = .called n)
      (hm : c.mark n = some (k, .dispatching)) (ha : c.active = some k) :
      Step .plain c { (c.setMark n k .queued) with
        active := none
        position := .free
        history := c.history ++ [.requeued n] }
  | abandon {c : Timeline} {k n st} (hp : c.position = .called n) (hm : c.mark n = some (k, st))
      (hst : st ≠ .dispatching) : Step .plain c { c with position := .free }
  /-- the applied result accepts, or blocks, and keeps the head -/
  | hold {c : Timeline} {k n old st} (hp : c.position = .called n) (hr : c.row k = some n)
      (hm : c.mark n = some (k, old)) (ha : c.active = some k)
      (hst : st = .delivered ∨ st = .unknown) :
      Step .plain c { (c.setMark n k st) with position := .free }
  /-- the applied result is terminal -/
  | finish {c : Timeline} {k n old st} (hp : c.position = .called n) (hr : c.row k = some n)
      (hm : c.mark n = some (k, old)) (ha : c.active = some k)
      (hst : st = .delivered ∨ st = .rejected ∨ st = .unsupported) :
      Step .plain c { ((c.setMark n k st).release k) with position := .free }
  | preflightClaim {c : Timeline} {k n old} (hp : c.position = .chosen n)
      (hm : c.mark n = some (k, old)) :
      Step (.preflightClaim n) c { (c.setMark n k .unknown) with
        active := some k
        position := .free }
  | possibleSend {c : Timeline} {k n old} (hp : c.position = .called n)
      (hm : c.mark n = some (k, old)) :
      Step (.possibleSend n) c { (c.setMark n k .unknown) with position := .free }
  | reconcileAccepted {c : Timeline} {k n old} (hr : c.row k = some n)
      (hm : c.mark n = some (k, old)) :
      Step (.reconciled n .delivered) c (c.setMark n k .delivered)
  | reconcileRefused {c : Timeline} {k n old st} (hr : c.row k = some n)
      (hm : c.mark n = some (k, old)) (hst : st = .rejected ∨ st = .unsupported) :
      Step (.reconciled n st) c ((c.setMark n k st).release k)

/-! ## Small facts about the pieces of a transition -/

@[simp] theorem setMark_row (c : Timeline) (n k st) : (c.setMark n k st).row = c.row := rfl
@[simp] theorem setMark_count (c : Timeline) (n k st) : (c.setMark n k st).count = c.count := rfl
@[simp] theorem setMark_timeline (c : Timeline) (n k st) :
    (c.setMark n k st).timeline = c.timeline := rfl
@[simp] theorem setMark_active (c : Timeline) (n k st) :
    (c.setMark n k st).active = c.active := rfl
@[simp] theorem setMark_position (c : Timeline) (n k st) :
    (c.setMark n k st).position = c.position := rfl
@[simp] theorem setMark_history (c : Timeline) (n k st) :
    (c.setMark n k st).history = c.history := rfl
@[simp] theorem release_mark (c : Timeline) (k) : (c.release k).mark = c.mark := rfl
@[simp] theorem release_row (c : Timeline) (k) : (c.release k).row = c.row := rfl
@[simp] theorem release_count (c : Timeline) (k) : (c.release k).count = c.count := rfl
@[simp] theorem release_position (c : Timeline) (k) :
    (c.release k).position = c.position := rfl
@[simp] theorem release_history (c : Timeline) (k) :
    (c.release k).history = c.history := rfl
@[simp] theorem release_timeline (c : Timeline) (k) :
    (c.release k).timeline = c.timeline.erase k := rfl

theorem setMark_mark (c : Timeline) (n k st m) :
    (c.setMark n k st).mark m = if m = n then some (k, st) else c.mark m := rfl

theorem release_active (c : Timeline) (k) :
    (c.release k).active = if c.active = some k then none else c.active := rfl

/-! ## What every transition preserves -/

/-- States an operation may still be sent from. -/
def Pending (st : SubmissionLifecycleState) : Prop := st = .queued ∨ st = .dispatching

/-- What every transition keeps. -/
structure WF (c : Timeline) : Prop where
  bound : ∀ n m, c.mark n = some m → n ≤ c.count
  row : ∀ k n, c.row k = some n → ∃ st, c.mark n = some (k, st)
  pending : ∀ n k st, c.mark n = some (k, st) → Pending st →
    c.row k = some n ∧ k ∈ c.timeline
  nodup : c.timeline.Nodup
  retained : ∀ k ∈ c.timeline, (c.row k).isSome
  order : c.timeline.Pairwise fun k k' =>
    ∀ n n', c.row k = some n → c.row k' = some n' → n < n'
  dispatching : ∀ n k, c.mark n = some (k, .dispatching) →
    c.active = some k ∧ (c.position = .calling n ∨ c.position = .called n)
  chosen : ∀ n, c.position = .chosen n → c.active = none ∧
    ∃ k st, c.mark n = some (k, st) ∧ (st = .queued → c.timeline.head? = some k)
  called : ∀ n, c.position = .calling n ∨ c.position = .called n →
    ∃ k st, c.mark n = some (k, st) ∧ st ≠ .queued

theorem mark_inj {c : Timeline} {n : Nat} {k k' : OperationKey}
    {st st' : SubmissionLifecycleState} (h : c.mark n = some (k, st))
    (h' : c.mark n = some (k', st')) : k = k' ∧ st = st' := by
  rw [h] at h'
  cases h'
  exact ⟨rfl, rfl⟩

theorem row_inj {c : Timeline} {k : OperationKey} {n n' : Nat} (h : c.row k = some n)
    (h' : c.row k = some n') : n = n' := by
  rw [h] at h'
  exact Option.some.inj h'

/-- Erasing another key leaves the head where it is. -/
theorem head?_erase_of_ne {ks : List OperationKey} {k k' : OperationKey}
    (h : ks.head? = some k') (hne : k' ≠ k) : (ks.erase k).head? = some k' := by
  cases ks with
  | nil => cases h
  | cons a ks =>
    have ha : a = k' := Option.some.inj h
    subst ha
    rw [List.erase_cons_tail (by simpa using hne)]
    rfl

namespace WF

variable {c : Timeline} {k : OperationKey} {n : Nat}

/-- The one record that may be dispatching is the dispatcher's own. -/
theorem no_dispatching_of_chosen (h : c.WF) (hp : c.position = .chosen n) (m k') :
    c.mark m ≠ some (k', .dispatching) := by
  intro hm
  rcases (h.dispatching m k' hm).2 with h' | h' <;> rw [hp] at h' <;> cases h'

theorem no_dispatching_of_called (h : c.WF) (hp : c.position = .called n) {st}
    (hn : c.mark n = some (k, st)) (hst : st ≠ .dispatching) (m k') :
    c.mark m ≠ some (k', .dispatching) := by
  intro hm
  rcases (h.dispatching m k' hm).2 with h' | h'
  · rw [hp] at h'
    cases h'
  · rw [hp] at h'
    cases h'
    exact hst (mark_inj hn hm).2

theorem retained_of_evicted {row'} (he : c.Evicted row') {k'} (hk : c.Pinned k')
    {m} (hm : c.row k' = some m) : row' k' = some m := by
  cases hr : row' k' with
  | none => exact absurd hk (he.dropped k' m hm hr).1
  | some m' => rw [row_inj hm (he.sub k' m' hr)]

theorem setHistory (h : c.WF) (events : List HistoryEvent) :
    WF { c with history := events } :=
  ⟨h.bound, h.row, h.pending, h.nodup, h.retained, h.order, h.dispatching, h.chosen, h.called⟩

theorem evict (h : c.WF) {row'} (he : c.Evicted row') : WF { c with row := row' } where
  bound := h.bound
  row := fun k' m hm => h.row k' m (he.sub k' m hm)
  pending := by
    intro m k' st hm hst
    obtain ⟨hr, ht⟩ := h.pending m k' st hm hst
    exact ⟨retained_of_evicted he (.inr ht) hr, ht⟩
  nodup := h.nodup
  retained := by
    intro k' hk'
    obtain ⟨m, hm⟩ := Option.isSome_iff_exists.mp (h.retained k' hk')
    exact Option.isSome_iff_exists.mpr ⟨m, retained_of_evicted he (.inr hk') hm⟩
  order := h.order.imp fun hlt m m' hm hm' => hlt m m' (he.sub _ _ hm) (he.sub _ _ hm')
  dispatching := h.dispatching
  chosen := h.chosen
  called := h.called

/-- A key whose row is free is not on the timeline. -/
theorem not_mem_timeline (h : c.WF) (hk : c.row k = none) : k ∉ c.timeline := by
  intro hmem
  have := h.retained k hmem
  rw [hk] at this
  cases this

theorem mark_ne_fresh (h : c.WF) {m p} (hm : c.mark m = some p) : m ≠ c.count + 1 := by
  have := h.bound m p hm
  omega

/-- A fresh operation takes the next ordinal and the last place. -/
theorem enrol_queued (h : c.WF) (hk : c.row k = none) :
    WF { (c.enrolled c.row k .queued) with timeline := c.timeline ++ [k] } := by
  -- a fresh ordinal lies above every other, so the new key goes last in every order
  have hfree := h.not_mem_timeline hk
  have hne : ∀ k' ∈ c.timeline, k ≠ k' := fun k' hk' he => hfree (he ▸ hk')
  constructor
  · intro m p hm
    simp only [enrolled] at hm ⊢
    split at hm
    · omega
    · have := h.bound m p hm
      omega
  · intro k' m hm
    simp only [enrolled] at hm ⊢
    split at hm
    · rename_i hkk
      cases hm
      exact ⟨.queued, by simp [hkk]⟩
    · obtain ⟨st, hst⟩ := h.row k' m hm
      exact ⟨st, by rw [if_neg (h.mark_ne_fresh hst)]; exact hst⟩
  · intro m k' st hm hp
    simp only [enrolled] at hm ⊢
    split at hm
    · rename_i hmk
      cases hm
      exact ⟨by simp [hmk], by simp⟩
    · obtain ⟨hr, ht⟩ := h.pending m k' st hm hp
      rw [if_neg (hne k' ht)]
      exact ⟨hr, by simp [ht]⟩
  · refine List.nodup_append.mpr ⟨h.nodup, by simp, ?_⟩
    intro k' hk' k'' hk''
    rw [List.mem_singleton] at hk''
    subst hk''
    exact fun he => hne k' hk' he.symm
  · intro k' hk'
    simp only [enrolled]
    split
    · rfl
    · rename_i hkk
      rcases List.mem_append.mp hk' with hk' | hk'
      · exact h.retained k' hk'
      · exact absurd (List.mem_singleton.mp hk').symm hkk
  · refine List.pairwise_append.mpr ⟨?_, by simp, ?_⟩
    · refine h.order.imp_of_mem ?_
      intro k' k'' hk' hk'' hlt m m' hm hm'
      simp only [enrolled, if_neg (hne k' hk'), if_neg (hne k'' hk'')] at hm hm'
      exact hlt m m' hm hm'
    · intro k' hk' k'' hk'' m m' hm hm'
      rw [List.mem_singleton] at hk''
      subst hk''
      simp only [enrolled, if_neg (hne k' hk'), if_true, Option.some.injEq] at hm hm'
      obtain ⟨st, hst⟩ := h.row k' m hm
      have := h.bound m _ hst
      omega
  · intro m k' hm
    simp only [enrolled] at hm ⊢
    split at hm
    · cases hm
    · exact h.dispatching m k' hm
  · intro m hm
    obtain ⟨ha, k', st, hmark, hhead⟩ := h.chosen m hm
    refine ⟨ha, k', st, ?_, ?_⟩
    · simp only [enrolled, if_neg (h.mark_ne_fresh hmark)]
      exact hmark
    · intro hst
      simp [List.head?_append, hhead hst]
  · intro m hm
    obtain ⟨k', st, hmark, hst⟩ := h.called m hm
    refine ⟨k', st, ?_, hst⟩
    simp only [enrolled, if_neg (h.mark_ne_fresh hmark)]
    exact hmark

theorem bound_setMark (h : c.WF) {old st} (hm : c.mark n = some (k, old)) :
    ∀ m p, (c.setMark n k st).mark m = some p → m ≤ c.count := by
  intro m p hp
  rw [setMark_mark] at hp
  split at hp
  · rename_i hmn
    exact hmn ▸ h.bound n _ hm
  · exact h.bound m p hp

theorem row_setMark (h : c.WF) {old st} (hm : c.mark n = some (k, old)) :
    ∀ k' m, c.row k' = some m → ∃ st', (c.setMark n k st).mark m = some (k', st') := by
  intro k' m hr
  obtain ⟨st', hst'⟩ := h.row k' m hr
  rw [setMark_mark]
  split
  · rename_i hmn
    subst hmn
    exact ⟨st, by rw [(mark_inj hm hst').1]⟩
  · exact ⟨st', hst'⟩

/-- A pending record stays retained whatever is written on it. -/
theorem pending_setMark (h : c.WF) {old st} (hm : c.mark n = some (k, old))
    (hold : Pending old) : ∀ m k' st', (c.setMark n k st).mark m = some (k', st') →
      Pending st' → c.row k' = some m ∧ k' ∈ c.timeline := by
  intro m k' st' hp hst
  rw [setMark_mark] at hp
  split at hp
  · rename_i hmn
    subst hmn
    cases hp
    exact h.pending m k old hm hold
  · exact h.pending m k' st' hp hst

/-- Writing a state nothing is sent from. -/
theorem write (h : c.WF) {old st} (hm : c.mark n = some (k, old)) (hst : ¬ Pending st) :
    (c.setMark n k st).WF := by
  constructor
  · exact h.bound_setMark hm
  · exact h.row_setMark hm
  · intro m k' st' hp hpend
    rw [setMark_mark] at hp
    split at hp
    · cases hp
      exact absurd hpend hst
    · exact h.pending m k' st' hp hpend
  · exact h.nodup
  · exact h.retained
  · exact h.order
  · intro m k' hp
    rw [setMark_mark] at hp
    split at hp
    · cases hp
      exact absurd (.inr rfl) hst
    · exact h.dispatching m k' hp
  · intro m hp
    obtain ⟨ha, k', st', hmark, hhead⟩ := h.chosen m hp
    rw [setMark_mark]
    split
    · exact ⟨ha, k, st, rfl, fun he => absurd (.inl he) hst⟩
    · exact ⟨ha, k', st', hmark, hhead⟩
  · intro m hp
    obtain ⟨k', st', hmark, hst'⟩ := h.called m hp
    rw [setMark_mark]
    split
    · exact ⟨k, st, rfl, fun he => hst (.inl he)⟩
    · exact ⟨k', st', hmark, hst'⟩

/-- A key leaves the timeline once nothing is to be sent under it. -/
theorem erase_timeline (h : c.WF) (hk : ∀ m st, c.mark m = some (k, st) → ¬ Pending st) :
    WF { c with timeline := c.timeline.erase k } where
  bound := h.bound
  row := h.row
  pending := by
    intro m k' st hm hst
    obtain ⟨hr, ht⟩ := h.pending m k' st hm hst
    have hne : k' ≠ k := by
      rintro rfl
      exact hk m st hm hst
    exact ⟨hr, (List.mem_erase_of_ne hne).mpr ht⟩
  nodup := h.nodup.erase k
  retained := fun k' hk' => h.retained k' (List.mem_of_mem_erase hk')
  order := h.order.sublist List.erase_sublist
  dispatching := h.dispatching
  chosen := by
    intro m hm
    obtain ⟨ha, k', st, hmark, hhead⟩ := h.chosen m hm
    refine ⟨ha, k', st, hmark, fun hst => head?_erase_of_ne (hhead hst) ?_⟩
    rintro rfl
    exact hk m st hmark (.inl hst)
  called := h.called

theorem release (h : c.WF) (hk : ∀ m st, c.mark m = some (k, st) → ¬ Pending st) :
    (c.release k).WF := by
  have hl := h.erase_timeline hk
  refine ⟨hl.bound, hl.row, hl.pending, hl.nodup, hl.retained, hl.order, ?_, ?_, hl.called⟩
  · intro m k' hm
    obtain ⟨ha, hp⟩ := h.dispatching m k' hm
    have hne : k' ≠ k := by
      rintro rfl
      exact hk m _ hm (.inr rfl)
    rw [release_active, if_neg (by rw [ha]; simpa using hne)]
    exact ⟨ha, hp⟩
  · intro m hm
    obtain ⟨ha, hrest⟩ := hl.chosen m hm
    refine ⟨?_, hrest⟩
    have ha' : c.active = none := ha
    simp [release_active, ha']

/-- The dispatcher forgets its record. -/
theorem position_free (h : c.WF) (hd : ∀ m k', c.mark m ≠ some (k', .dispatching)) :
    WF { c with position := .free } where
  bound := h.bound
  row := h.row
  pending := h.pending
  nodup := h.nodup
  retained := h.retained
  order := h.order
  dispatching := fun m k' hm => absurd hm (hd m k')
  chosen := by
    intro m hm
    cases hm
  called := by
    intro m hm
    rcases hm with hm | hm <;> cases hm

/-- With nothing chosen and nothing dispatching, any key may turn active. -/
theorem activate (h : c.WF) (hp : c.position = .free) (k) :
    WF { c with active := some k } where
  bound := h.bound
  row := h.row
  pending := h.pending
  nodup := h.nodup
  retained := h.retained
  order := h.order
  dispatching := by
    intro m k' hm
    rcases (h.dispatching m k' hm).2 with h' | h' <;> rw [hp] at h' <;> cases h'
  chosen := by
    intro m hm
    rw [show c.position = _ from hm] at hp
    cases hp
  called := h.called

/-- Once its row is written out of the pending states, no other record
of the same key is pending. -/
theorem not_pending_of_row (h : c.WF) (hr : c.row k = some n) {st} (hst : ¬ Pending st) :
    ∀ m st', (c.setMark n k st).mark m = some (k, st') → ¬ Pending st' := by
  intro m st' hm hpend
  rw [setMark_mark] at hm
  split at hm
  · cases hm
    exact hst hpend
  · rename_i hmn
    exact hmn (row_inj (h.pending m k st' hm hpend).1 hr)

/-- Choosing, from rest, the queued head. -/
theorem choose (h : c.WF) (hp : c.position = .free) (hh : c.timeline.head? = some k)
    (hm : c.mark n = some (k, .queued)) (ha : c.active = none) :
    WF { c with position := .chosen n } where
  bound := h.bound
  row := h.row
  pending := h.pending
  nodup := h.nodup
  retained := h.retained
  order := h.order
  dispatching := by
    intro m k' hd
    rcases (h.dispatching m k' hd).2 with h' | h' <;> rw [hp] at h' <;> cases h'
  chosen := by
    intro m hm'
    cases hm'
    exact ⟨ha, k, .queued, hm, fun _ => hh⟩
  called := by
    intro m hm'
    rcases hm' with hm' | hm' <;> cases hm'

theorem claim (h : c.WF) (hp : c.position = .chosen n) (hm : c.mark n = some (k, .queued)) :
    WF { (c.setMark n k .dispatching) with active := some k, position := .calling n } := by
  refine ⟨h.bound_setMark hm, h.row_setMark hm, h.pending_setMark hm (.inl rfl), h.nodup,
    h.retained, h.order, ?_, ?_, ?_⟩
  · intro m k' hmark
    simp only [setMark_mark] at hmark
    split at hmark
    · rename_i hmn
      cases hmark
      exact ⟨rfl, .inl (by rw [hmn])⟩
    · exact absurd hmark (h.no_dispatching_of_chosen hp m k')
  · intro m hp'
    cases hp'
  · intro m hp'
    rcases hp' with hp' | hp'
    · cases hp'
      exact ⟨k, .dispatching, by simp [setMark_mark], by simp⟩
    · cases hp'

theorem answer (h : c.WF) (hp : c.position = .calling n) :
    WF { c with position := .called n } where
  bound := h.bound
  row := h.row
  pending := h.pending
  nodup := h.nodup
  retained := h.retained
  order := h.order
  dispatching := by
    intro m k' hm
    obtain ⟨ha, h' | h'⟩ := h.dispatching m k' hm
    · rw [hp] at h'
      cases h'
      exact ⟨ha, .inr rfl⟩
    · rw [hp] at h'
      cases h'
  chosen := by
    intro m hm
    cases hm
  called := by
    intro m hm
    rcases hm with hm | hm <;> cases hm
    exact h.called n (.inl hp)

/-- A certified unsent operation goes back to where it stands. -/
theorem requeue (h : c.WF) (hp : c.position = .called n)
    (hm : c.mark n = some (k, .dispatching)) :
    WF { (c.setMark n k .queued) with active := none, position := .free } := by
  refine ⟨h.bound_setMark hm, h.row_setMark hm, h.pending_setMark hm (.inr rfl), h.nodup,
    h.retained, h.order, ?_, ?_, ?_⟩
  · intro m k' hmark
    simp only [setMark_mark] at hmark
    split at hmark
    · cases hmark
    · rename_i hmn
      rcases (h.dispatching m k' hmark).2 with h' | h' <;> rw [hp] at h' <;> cases h'
      exact absurd rfl hmn
  · intro m hp'
    cases hp'
  · intro m hp'
    rcases hp' with hp' | hp' <;> cases hp'

/-- Writing the dispatcher's record out of `dispatching` leaves none. -/
theorem no_dispatching_of_write (h : c.WF) (hp : c.position = .called n) {st}
    (hst : st ≠ .dispatching) (m k') :
    (c.setMark n k st).mark m ≠ some (k', .dispatching) := by
  intro hm
  rw [setMark_mark] at hm
  split at hm
  · cases hm
    exact hst rfl
  · rename_i hmn
    rcases (h.dispatching m k' hm).2 with h' | h' <;> rw [hp] at h' <;> cases h'
    exact hmn rfl

end WF

/-- Every transition keeps the model well formed. -/
theorem Step.wf {cause : Cause} {c c' : Timeline} (h : Step cause c c') (hc : c.WF) :
    c'.WF := by
  cases h with
  | stay => exact hc
  | evict he => exact hc.evict he
  | join he hk => exact (hc.evict he).enrol_queued hk
  | refuse he hk =>
    rename_i row' k
    -- a refusal is an admission written `unsupported` and taken off at once
    have hin := (hc.evict he).enrol_queued hk
    have hrow : ({ (c.enrolled row' k .queued) with
        timeline := c.timeline ++ [k] } : Timeline).row k = some (c.count + 1) := by
      simp [enrolled]
    have hmark : ({ (c.enrolled row' k .queued) with
        timeline := c.timeline ++ [k] } : Timeline).mark (c.count + 1)
          = some (k, .queued) := by
      simp [enrolled]
    have hst : ¬ Pending .unsupported := by
      rintro (h | h) <;> cases h
    have hout := (hin.write hmark hst).erase_timeline (hin.not_pending_of_row hrow hst)
    have hfree := (hc.evict he).not_mem_timeline hk
    convert hout using 1
    simp only [enrolled, setMark, Timeline.mk.injEq, true_and, and_true]
    refine ⟨?_, ?_⟩
    · funext m
      by_cases hm : m = c.count + 1 <;> simp [hm]
    · rw [List.erase_append_right _ hfree]
      simp
  | withdraw hr hm =>
    have hst : ¬ Pending .withdrawn := by
      rintro (h | h) <;> cases h
    exact (((hc.write hm hst).erase_timeline (hc.not_pending_of_row hr hst)).setHistory _)
  | settle hr hm hold hst =>
    rename_i st
    have hst' : ¬ Pending st := by
      rcases hst with rfl | rfl <;> rintro (h | h) <;> cases h
    exact (hc.write hm hst').release (hc.not_pending_of_row hr hst')
  | choose hp hh hr hm ha => exact hc.choose hp hh hm ha
  | unchoose hp => exact hc.position_free (hc.no_dispatching_of_chosen hp)
  | claim hp hh hm ha => exact (hc.claim hp hm).setHistory _
  | answer hp => exact (hc.answer hp).setHistory _
  | requeue hp hm ha => exact (hc.requeue hp hm).setHistory _
  | abandon hp hm hst => exact hc.position_free (hc.no_dispatching_of_called hp hm hst)
  | hold hp hr hm ha hst =>
    rename_i st
    have hst' : ¬ Pending st := by
      rcases hst with rfl | rfl <;> rintro (h | h) <;> cases h
    exact (hc.write hm hst').position_free (hc.no_dispatching_of_write hp fun he => hst' (.inr he))
  | finish hp hr hm ha hst =>
    rename_i st
    have hst' : ¬ Pending st := by
      rcases hst with rfl | rfl | rfl <;> rintro (h | h) <;> cases h
    exact ((hc.write hm hst').release (hc.not_pending_of_row hr hst')).position_free
      (hc.no_dispatching_of_write hp fun he => hst' (.inr he))
  | preflightClaim hp hm =>
    have hst' : ¬ Pending .unknown := by
      rintro (h | h) <;> cases h
    have hw := hc.write hm hst'
    exact (hw.position_free (hw.no_dispatching_of_chosen hp)).activate rfl _
  | possibleSend hp hm =>
    have hst' : ¬ Pending .unknown := by
      rintro (h | h) <;> cases h
    exact (hc.write hm hst').position_free (hc.no_dispatching_of_write hp fun he => hst' (.inr he))
  | reconcileAccepted hr hm =>
    exact hc.write hm (by rintro (h | h) <;> cases h)
  | reconcileRefused hr hm hst =>
    rename_i st
    have hst' : ¬ Pending st := by
      rcases hst with rfl | rfl <;> rintro (h | h) <;> cases h
    exact (hc.write hm hst').release (hc.not_pending_of_row hr hst')

end Timeline

end AgentsRemember.Submission
