import Mathlib.Data.List.Nodup
import Mathlib.Logic.Relation
import Mathlib.Order.Bounds.Basic

/-!
# Foundation — Worklist

The closure of a set of nodes along edges, by a queue: a node leaves at the
front, every edge that leaves it is passed, and the ends not met before go in at
the back. The queue runs empty, and what was met then is the least set that has
the roots and goes along with the edges.
-/

namespace Worklist

variable {ν ε : Type}

/-- The nodes met, the edges passed, and the nodes that still wait. -/
structure Sweep (ν ε : Type) where
  selected : List ν
  passed : List ε
  pending : List ν

section loop
variable [DecidableEq ν] [DecidableEq ε] (leaving : ν → List ε) (target : ε → ν)

/-- An edge is passed; its end waits when it is met for the first time. -/
def pass (s : Sweep ν ε) (e : ε) : Sweep ν ε :=
  if target e ∈ s.selected then { s with passed := s.passed.insert e }
  else ⟨s.selected.insert (target e), s.passed.insert e, s.pending ++ [target e]⟩

/-- Nodes leave the queue until it is empty. -/
def sweep : Nat → Sweep ν ε → Sweep ν ε
  | 0, s => s
  | fuel + 1, s =>
    match s.pending with
    | [] => s
    | v :: rest => sweep fuel ((leaving v).foldl (pass target) { s with pending := rest })

/-- The sweep from the roots. Every node waits at most once. -/
def closure (roots : List ν) (edges : List ε) : Sweep ν ε :=
  sweep leaving target (roots.length + edges.length) ⟨roots, [], roots⟩

end loop

/-! ## Reachability -/

section reachability
variable (leaving : ν → List ε) (target : ε → ν)

/-- An edge leads from the one to the other. -/
def Step (u v : ν) : Prop := ∃ e ∈ leaving u, target e = v

/-- Along the edges from one of the roots. -/
def Reached (roots : List ν) (v : ν) : Prop :=
  ∃ r ∈ roots, Relation.ReflTransGen (Step leaving target) r v

/-- The sets that have the roots and every end of an edge that leaves them. -/
def Closed (roots : List ν) : Set (Set ν) :=
  { S | (∀ r ∈ roots, r ∈ S) ∧ ∀ v ∈ S, ∀ e ∈ leaving v, target e ∈ S }

variable {leaving target}

theorem Reached.root {roots : List ν} {r : ν} (h : r ∈ roots) : Reached leaving target roots r :=
  ⟨r, h, .refl⟩

theorem Reached.along {roots : List ν} {v : ν} (h : Reached leaving target roots v) {e : ε}
    (he : e ∈ leaving v) : Reached leaving target roots (target e) := by
  obtain ⟨r, hr, hpath⟩ := h
  exact ⟨r, hr, hpath.tail ⟨e, he, rfl⟩⟩

/-- What is reached is the least of the closed sets. -/
theorem reached_isLeast (roots : List ν) :
    IsLeast (Closed leaving target roots) { v | Reached leaving target roots v } := by
  constructor
  · exact ⟨fun r hr => Reached.root hr, fun v hv e he => Reached.along hv he⟩
  · intro S hS v hv
    obtain ⟨r, hr, hpath⟩ := hv
    induction hpath with
    | refl => exact hS.1 r hr
    | tail hpath hstep ih =>
      obtain ⟨e, he, rfl⟩ := hstep
      exact hS.2 _ ih e he

end reachability

/-! ## One node -/

section one
variable [DecidableEq ν] [DecidableEq ε] {leaving : ν → List ε} {target : ε → ν}

theorem mem_selected_pass (s : Sweep ν ε) (e : ε) (v : ν) :
    v ∈ (pass target s e).selected ↔ v ∈ s.selected ∨ target e = v := by
  unfold pass
  split
  · rename_i hin
    constructor
    · exact .inl
    · intro h
      rcases h with h | rfl
      · exact h
      · exact hin
  · rw [List.mem_insert_iff, or_comm, eq_comm]

theorem mem_passed_pass (s : Sweep ν ε) (e f : ε) :
    f ∈ (pass target s e).passed ↔ f ∈ s.passed ∨ f = e := by
  unfold pass
  split <;> rw [List.mem_insert_iff, or_comm]

theorem mem_pending_pass (s : Sweep ν ε) (e : ε) (v : ν) :
    v ∈ (pass target s e).pending ↔ v ∈ s.pending ∨ v ∉ s.selected ∧ target e = v := by
  unfold pass
  split
  · rename_i hin
    constructor
    · exact .inl
    · intro h
      rcases h with h | ⟨hv, rfl⟩
      · exact h
      · exact absurd hin hv
  · rename_i hin
    rw [List.mem_append, List.mem_singleton]
    constructor
    · intro h
      rcases h with h | rfl
      · exact .inl h
      · exact .inr ⟨hin, rfl⟩
    · intro h
      rcases h with h | ⟨-, rfl⟩
      · exact .inl h
      · exact .inr rfl

theorem mem_selected_passes (es : List ε) (s : Sweep ν ε) (v : ν) :
    v ∈ (es.foldl (pass target) s).selected ↔ v ∈ s.selected ∨ ∃ e ∈ es, target e = v := by
  induction es generalizing s with
  | nil => simp
  | cons e es ih => simp [ih, mem_selected_pass, or_assoc]

theorem mem_passed_passes (es : List ε) (s : Sweep ν ε) (f : ε) :
    f ∈ (es.foldl (pass target) s).passed ↔ f ∈ s.passed ∨ f ∈ es := by
  induction es generalizing s with
  | nil => simp
  | cons e es ih => simp [ih, mem_passed_pass, or_assoc]

theorem mem_pending_passes (es : List ε) (s : Sweep ν ε) (v : ν) :
    v ∈ (es.foldl (pass target) s).pending ↔
      v ∈ s.pending ∨ v ∉ s.selected ∧ ∃ e ∈ es, target e = v := by
  induction es generalizing s with
  | nil => simp
  | cons e es ih =>
    rw [List.foldl_cons, ih, mem_pending_pass, mem_selected_pass]
    simp only [List.mem_cons, exists_eq_or_imp]
    tauto

theorem nodup_passes (es : List ε) {s : Sweep ν ε} (hselected : s.selected.Nodup)
    (hpassed : s.passed.Nodup) :
    (es.foldl (pass target) s).selected.Nodup ∧ (es.foldl (pass target) s).passed.Nodup := by
  induction es generalizing s with
  | nil => exact ⟨hselected, hpassed⟩
  | cons e es ih =>
    rw [List.foldl_cons]
    apply ih
    · unfold pass
      split
      · exact hselected
      · exact List.Nodup.insert hselected
    · unfold pass
      split <;> exact List.Nodup.insert hpassed

end one

/-! ## The queue runs empty -/

section ending
variable [DecidableEq ν] [DecidableEq ε] {leaving : ν → List ε} {target : ε → ν}

/-- What can still happen: nodes that wait, and edges whose ends were not met. -/
def ahead (target : ε → ν) (edges : List ε) (s : Sweep ν ε) : Nat :=
  s.pending.length + (edges.filter fun e => target e ∉ s.selected).length

theorem ahead_pass {edges : List ε} {e : ε} (he : e ∈ edges) (s : Sweep ν ε) :
    ahead target edges (pass target s e) ≤ ahead target edges s := by
  unfold pass
  split
  · exact Nat.le_refl _
  · rename_i hin
    -- the edge itself is no longer one with an end not met
    have hfewer : (edges.filter fun f => target f ∉ s.selected.insert (target e)).length <
        (edges.filter fun f => target f ∉ s.selected).length := by
      have hsub : (edges.filter fun f => target f ∉ s.selected.insert (target e)).Sublist
          ((edges.filter fun f => target f ∉ s.selected).filter fun f => f ≠ e) := by
        rw [List.filter_filter]
        refine List.monotone_filter_right _ ?_
        intro f hf
        simp only [List.mem_insert_iff, not_or, decide_eq_true_eq, Bool.and_eq_true] at hf ⊢
        refine ⟨?_, hf.2⟩
        rintro rfl
        exact hf.1 rfl
      refine Nat.lt_of_le_of_lt hsub.length_le ?_
      apply List.length_filter_lt_length_iff_exists.mpr
      exact ⟨e, by simp [he, hin], by simp⟩
    simp only [ahead, List.length_append, List.length_singleton]
    omega

theorem ahead_passes {edges es : List ε} (hes : ∀ e ∈ es, e ∈ edges) (s : Sweep ν ε) :
    ahead target edges (es.foldl (pass target) s) ≤ ahead target edges s := by
  induction es generalizing s with
  | nil => exact Nat.le_refl _
  | cons e es ih =>
    rw [List.foldl_cons]
    calc ahead target edges (es.foldl (pass target) (pass target s e))
        ≤ ahead target edges (pass target s e) := ih (fun f hf => hes f (by simp [hf])) _
      _ ≤ ahead target edges s := ahead_pass (hes e (by simp)) s

theorem sweep_pending {edges : List ε} (hedges : ∀ v, ∀ e ∈ leaving v, e ∈ edges) (fuel : Nat)
    (s : Sweep ν ε) (hfuel : ahead target edges s ≤ fuel) :
    (sweep leaving target fuel s).pending = [] := by
  induction fuel generalizing s with
  | zero =>
    have hnone : s.pending.length = 0 := by
      unfold ahead at hfuel
      omega
    exact List.eq_nil_of_length_eq_zero hnone
  | succ fuel ih =>
    unfold sweep
    split
    · assumption
    · rename_i v rest hpending
      apply ih
      have hless : ahead target edges { s with pending := rest } + 1 = ahead target edges s := by
        simp only [ahead, hpending, List.length_cons]
        omega
      have hpass : ahead target edges ((leaving v).foldl (pass target) { s with pending := rest }) ≤
          ahead target edges { s with pending := rest } := ahead_passes (hedges v) _
      omega

end ending

/-! ## The sweep -/

section sweeping
variable [DecidableEq ν] [DecidableEq ε] {leaving : ν → List ε} {target : ε → ν}

/-- Between two nodes of the queue: who was met and does not wait is done with. -/
structure Between (leaving : ν → List ε) (target : ε → ν) (roots : List ν) (s : Sweep ν ε) :
    Prop where
  starts : ∀ r ∈ roots, r ∈ s.selected
  waiting : ∀ v ∈ s.pending, v ∈ s.selected
  done : ∀ v ∈ s.selected, v ∈ s.pending ∨ ∀ e ∈ leaving v, e ∈ s.passed ∧ target e ∈ s.selected
  reached : ∀ v ∈ s.selected, Reached leaving target roots v
  passed : ∀ e ∈ s.passed, ∃ v ∈ s.selected, e ∈ leaving v
  once : s.selected.Nodup ∧ s.passed.Nodup

omit [DecidableEq ν] [DecidableEq ε] in
theorem Between.start {roots : List ν} (hroots : roots.Nodup) :
    Between leaving target roots ⟨roots, [], roots⟩ where
  starts _ h := h
  waiting _ h := h
  done _ h := .inl h
  reached _ h := .root h
  passed _ h := absurd h List.not_mem_nil
  once := ⟨hroots, .nil⟩

theorem Between.next {roots : List ν} {s : Sweep ν ε} (h : Between leaving target roots s)
    {v : ν} {rest : List ν} (hpending : s.pending = v :: rest) :
    Between leaving target roots ((leaving v).foldl (pass target) { s with pending := rest }) := by
  have hv : v ∈ s.selected := h.waiting v (by simp [hpending])
  constructor
  case starts =>
    intro r hr
    rw [mem_selected_passes]
    exact .inl (h.starts r hr)
  case waiting =>
    intro w hw
    rw [mem_pending_passes] at hw
    rw [mem_selected_passes]
    rcases hw with hw | ⟨-, hw⟩
    · exact .inl (h.waiting w (by simp [hpending, show w ∈ rest from hw]))
    · exact .inr hw
  case done =>
    intro w hw
    rw [mem_pending_passes]
    simp only [mem_selected_passes, mem_passed_passes] at hw ⊢
    by_cases hold : w ∈ s.selected
    · rcases h.done w hold with hwait | hdone
      · rw [hpending, List.mem_cons] at hwait
        rcases hwait with rfl | hwait
        · exact .inr fun e he => ⟨.inr he, .inr ⟨e, he, rfl⟩⟩
        · exact .inl (.inl hwait)
      · exact .inr fun e he => ⟨.inl (hdone e he).1, .inl (hdone e he).2⟩
    · rcases hw with hw | hw
      · exact absurd hw hold
      · exact .inl (.inr ⟨hold, hw⟩)
  case reached =>
    intro w hw
    rw [mem_selected_passes] at hw
    rcases hw with hw | ⟨e, he, rfl⟩
    · exact h.reached w hw
    · exact (h.reached v hv).along he
  case passed =>
    intro e he
    rw [mem_passed_passes] at he
    simp only [mem_selected_passes]
    rcases he with he | he
    · obtain ⟨w, hw, hleaving⟩ := h.passed e he
      exact ⟨w, .inl hw, hleaving⟩
    · exact ⟨v, .inl hv, he⟩
  case once => exact nodup_passes (leaving v) h.once.1 h.once.2

theorem Between.sweep {roots : List ν} (fuel : Nat) {s : Sweep ν ε}
    (h : Between leaving target roots s) :
    Between leaving target roots (Worklist.sweep leaving target fuel s) := by
  induction fuel generalizing s with
  | zero => exact h
  | succ fuel ih =>
    unfold Worklist.sweep
    split
    · exact h
    · rename_i v rest hpending
      exact ih (h.next hpending)

variable {roots : List ν} {edges : List ε}

theorem between_closure (hroots : roots.Nodup) :
    Between leaving target roots (closure leaving target roots edges) :=
  (Between.start hroots).sweep _

theorem closure_pending (hedges : ∀ v, ∀ e ∈ leaving v, e ∈ edges) :
    (closure leaving target roots edges).pending = [] := by
  apply sweep_pending hedges
  have hsome : (edges.filter fun e => target e ∉ roots).length ≤ edges.length :=
    List.length_filter_le _ _
  exact Nat.add_le_add_left hsome roots.length

/-- The nodes met are those that the edges reach from the roots. -/
theorem mem_selected_closure (hroots : roots.Nodup) (hedges : ∀ v, ∀ e ∈ leaving v, e ∈ edges)
    {v : ν} :
    v ∈ (closure leaving target roots edges).selected ↔ Reached leaving target roots v := by
  have hbetween : Between leaving target roots (closure leaving target roots edges) :=
    between_closure hroots
  constructor
  · exact hbetween.reached v
  · intro hv
    have hclosed : { v | v ∈ (closure leaving target roots edges).selected } ∈
        Closed leaving target roots := by
      refine ⟨hbetween.starts, fun w hw e he => ?_⟩
      rcases hbetween.done w hw with hwait | hdone
      · rw [closure_pending hedges] at hwait
        exact absurd hwait List.not_mem_nil
      · exact (hdone e he).2
    exact (reached_isLeast roots).2 hclosed hv

/-- The edges passed are those that leave a node met. -/
theorem mem_passed_closure (hroots : roots.Nodup) (hedges : ∀ v, ∀ e ∈ leaving v, e ∈ edges)
    {e : ε} :
    e ∈ (closure leaving target roots edges).passed ↔
      ∃ v, Reached leaving target roots v ∧ e ∈ leaving v := by
  have hbetween : Between leaving target roots (closure leaving target roots edges) :=
    between_closure hroots
  constructor
  · intro he
    obtain ⟨v, hv, hleaving⟩ := hbetween.passed e he
    exact ⟨v, hbetween.reached v hv, hleaving⟩
  · intro h
    obtain ⟨v, hv, he⟩ := h
    rcases hbetween.done v ((mem_selected_closure hroots hedges).mpr hv) with hwait | hdone
    · rw [closure_pending hedges] at hwait
      exact absurd hwait List.not_mem_nil
    · exact (hdone e he).1

end sweeping

end Worklist
