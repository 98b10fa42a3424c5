import AgentsRemember.Foundation.Runs
import Mathlib.Order.Basic
import Mathlib.Tactic.Push

/-!
# Foundation — Waiting

Owners with items to close. An item may close once it is ready, which depends on
the owners that are done; an owner is done from the start, or once its items are
closed. Being done never makes an item less ready.

Some open item can always be closed exactly when no set of owners waits for
itself (`never_stuck_iff`), and then everything can be closed.
-/

namespace Waiting

variable {ω ι : Type} [DecidableEq ω] [DecidableEq ι]

/-- The owners, their items, and when an item is ready. -/
structure Work (ω ι : Type) where
  owners : List ω
  finished : ω → Bool
  items : ω → List ι
  ready : List ω → ω → ι → Bool
  monotone : ∀ {done done' : List ω} {owner : ω} {item : ι}, (∀ o ∈ done, o ∈ done') →
    ready done owner item → ready done' owner item

namespace Work
variable (w : Work ω ι)

/-- What is closed so far decides which owners are done. -/
def done (closed : List (ω × ι)) : List ω :=
  w.owners.filter fun owner =>
    w.finished owner || (w.items owner).all fun item => (owner, item) ∈ closed

/-- An item that may be closed next. -/
def Closable (closed : List (ω × ι)) (e : ω × ι) : Prop :=
  e.1 ∈ w.owners ∧ w.finished e.1 = false ∧ e.2 ∈ w.items e.1 ∧ e ∉ closed ∧
    w.ready (w.done closed) e.1 e.2

instance (closed : List (ω × ι)) (e : ω × ι) : Decidable (w.Closable closed e) :=
  inferInstanceAs (Decidable (_ ∧ _))

/-- One item closes. -/
def close (closed : List (ω × ι)) (e : ω × ι) : Option (List (ω × ι)) :=
  if w.Closable closed e then some (closed ++ [e]) else none

/-- Nothing is left to do. -/
def AllDone (closed : List (ω × ι)) : Prop := ∀ owner ∈ w.owners, owner ∈ w.done closed

/-- Some owner is not done, and no item of any can be closed. -/
def Stuck (closed : List (ω × ι)) : Prop := ¬w.AllDone closed ∧ ∀ e, ¬w.Closable closed e

/-- Owners that wait for each other: each has an item that is not ready when all
the others are done. -/
structure Circle (waiting : List ω) : Prop where
  some : waiting ≠ []
  open_ : ∀ owner ∈ waiting, owner ∈ w.owners ∧ w.finished owner = false
  waits : ∀ owner ∈ waiting, ∃ item ∈ w.items owner,
    w.ready (w.owners.filter fun o => o ∉ waiting) owner item = false

variable {w}

theorem mem_done {closed : List (ω × ι)} {owner : ω} :
    owner ∈ w.done closed ↔ owner ∈ w.owners ∧
      (w.finished owner = true ∨ ∀ item ∈ w.items owner, (owner, item) ∈ closed) := by
  simp [done]

theorem close_eq_some {closed closed' : List (ω × ι)} {e : ω × ι} :
    w.close closed e = some closed' ↔ w.Closable closed e ∧ closed' = closed ++ [e] := by
  unfold close
  split
  · rename_i h
    simp [h, eq_comm]
  · rename_i h
    simp [h]

/-- A state without progress shows a circle: the owners that are not done. -/
theorem circle_of_stuck {closed : List (ω × ι)} (h : w.Stuck closed) :
    w.Circle (w.owners.filter fun owner => owner ∉ w.done closed) := by
  obtain ⟨hopen, hstuck⟩ := h
  refine ⟨?_, fun owner howner => ?_, fun owner howner => ?_⟩
  · intro hnil
    apply hopen
    intro owner howner
    have := List.filter_eq_nil_iff.mp hnil owner howner
    simpa using this
  · obtain ⟨hmem, hnot⟩ := List.mem_filter.mp howner
    have hnot : owner ∉ w.done closed := of_decide_eq_true hnot
    refine ⟨hmem, ?_⟩
    by_contra hfinished
    exact hnot (mem_done.mpr ⟨hmem, .inl (by simpa using hfinished)⟩)
  · obtain ⟨hmem, hnot⟩ := List.mem_filter.mp howner
    have hnot : owner ∉ w.done closed := of_decide_eq_true hnot
    rw [mem_done] at hnot
    push Not at hnot
    obtain ⟨hfinished, item, hitem, hclosed⟩ := hnot hmem
    refine ⟨item, hitem, ?_⟩
    rw [← Bool.not_eq_true]
    intro hready
    refine hstuck (owner, item) ⟨hmem, by simpa using hfinished, hitem, hclosed, ?_⟩
    -- outside the circle are exactly the owners that are done
    refine w.monotone (fun o ho => ?_) hready
    obtain ⟨homem, honot⟩ := List.mem_filter.mp ho
    have honot := of_decide_eq_true honot
    by_contra hodone
    exact honot (List.mem_filter.mpr ⟨homem, decide_eq_true hodone⟩)

/-- Along every run, the items that a circle waits with stay open. -/
theorem Circle.stays {waiting : List ω} (h : w.Circle waiting) {closed : List (ω × ι)}
    (hreach : Runs.Reachable w.close [] closed) :
    ∀ owner ∈ waiting, owner ∉ w.done closed := by
  have hinvariant : ∀ owner ∈ waiting, ∀ item,
      w.ready (w.owners.filter fun o => o ∉ waiting) owner item = false →
        (owner, item) ∉ closed := by
    have hdone : ∀ {closed : List (ω × ι)}, (∀ owner ∈ waiting, ∀ item,
        w.ready (w.owners.filter fun o => o ∉ waiting) owner item = false →
          (owner, item) ∉ closed) → ∀ owner ∈ waiting, owner ∉ w.done closed := by
      intro closed hI owner howner hdone
      obtain ⟨item, hitem, hblocked⟩ := h.waits owner howner
      obtain ⟨-, hfinished | hall⟩ := mem_done.mp hdone
      · rw [(h.open_ owner howner).2] at hfinished
        cases hfinished
      · exact hI owner howner item hblocked (hall item hitem)
    refine Runs.Reachable.invariant (I := fun closed => ∀ owner ∈ waiting, ∀ item,
        w.ready (w.owners.filter fun o => o ∉ waiting) owner item = false →
          (owner, item) ∉ closed) (fun closed e closed' hI hstep => ?_)
      (fun _ _ _ _ => List.not_mem_nil) hreach
    obtain ⟨⟨-, -, -, -, hready⟩, rfl⟩ := close_eq_some.mp hstep
    intro owner howner item hblocked hmem
    rcases List.mem_append.mp hmem with hmem | hmem
    · exact hI owner howner item hblocked hmem
    · obtain rfl : (owner, item) = e := List.mem_singleton.mp hmem
      have hothers : ∀ o ∈ w.done closed, o ∈ w.owners.filter fun o => o ∉ waiting :=
        fun o ho => List.mem_filter.mpr ⟨(mem_done.mp ho).1,
          decide_eq_true fun hwaiting => hdone hI o hwaiting ho⟩
      have hunblocked := w.monotone hothers hready
      rw [hblocked] at hunblocked
      cases hunblocked
  intro owner howner hdone
  obtain ⟨item, hitem, hblocked⟩ := h.waits owner howner
  obtain ⟨-, hfinished | hall⟩ := mem_done.mp hdone
  · rw [(h.open_ owner howner).2] at hfinished
    cases hfinished
  · exact hinvariant owner howner item hblocked (hall item hitem)

/-- The items that are still open, for a measure. -/
def openItems (w : Work ω ι) (closed : List (ω × ι)) : List (ω × ι) :=
  (w.owners.flatMap fun owner => (w.items owner).map fun item => (owner, item)).filter
    fun e => e ∉ closed

theorem openItems_close {closed : List (ω × ι)} {e : ω × ι} (h : w.Closable closed e) :
    (w.openItems (closed ++ [e])).length < (w.openItems closed).length := by
  obtain ⟨howner, -, hitem, hopen, -⟩ := h
  have hsub : w.openItems (closed ++ [e]) = (w.openItems closed).filter fun f => f ≠ e := by
    unfold openItems
    rw [List.filter_filter]
    apply List.filter_congr
    intro f _
    simp [and_comm]
  rw [hsub, List.length_filter_lt_length_iff_exists]
  refine ⟨e, List.mem_filter.mpr ⟨?_, by simpa using hopen⟩, by simp⟩
  exact List.mem_flatMap.mpr ⟨e.1, howner, List.mem_map.mpr ⟨e.2, hitem, rfl⟩⟩

/-- Where no state is stuck, every run can be continued to the end. -/
theorem exists_allDone (h : ∀ closed, Runs.Reachable w.close [] closed → ¬w.Stuck closed)
    {closed : List (ω × ι)} (hreach : Runs.Reachable w.close [] closed) :
    ∃ closed', Runs.Reachable w.close closed closed' ∧ w.AllDone closed' := by
  induction hn : (w.openItems closed).length using Nat.strongRecOn generalizing closed with
  | ind n ih =>
    by_cases hall : w.AllDone closed
    · exact ⟨closed, .init closed, hall⟩
    · have hmore : ∃ e, w.Closable closed e := by
        by_contra hno
        push Not at hno
        exact h closed hreach ⟨hall, hno⟩
      obtain ⟨e, he⟩ := hmore
      have hstep : w.close closed e = some (closed ++ [e]) := close_eq_some.mpr ⟨he, rfl⟩
      obtain ⟨closed', ⟨ls, hls⟩, hdone⟩ :=
        ih _ (hn ▸ openItems_close he) (hreach.snoc hstep) rfl
      exact ⟨closed', ⟨e :: ls, Runs.run_cons_eq_some.mpr ⟨_, hstep, hls⟩⟩, hdone⟩

/-- No reachable state is stuck exactly when no owners wait in a circle. -/
theorem never_stuck_iff :
    (∀ closed, Runs.Reachable w.close [] closed → ¬w.Stuck closed) ↔ ¬∃ waiting, w.Circle waiting := by
  constructor
  · rintro h ⟨waiting, hcircle⟩
    obtain ⟨closed, hreach, hdone⟩ := exists_allDone h (.init [])
    obtain ⟨owner, howner⟩ := List.exists_mem_of_ne_nil waiting hcircle.some
    exact hcircle.stays hreach owner howner (hdone owner (hcircle.open_ owner howner).1)
  · intro h closed hreach hstuck
    exact h ⟨_, circle_of_stuck hstuck⟩

end Work

end Waiting
