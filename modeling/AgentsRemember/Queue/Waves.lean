import AgentsRemember.Foundation.Layers
import AgentsRemember.Queue.ExecutionGraph
import Mathlib.Data.List.Sort
import Mathlib.Data.Set.Finite.Lattice

/-!
# Queue — Waves

What the loop over the ready nodes derives: each wave is a layer of the resolved
graph, in the order of the indexes, and the waves hold every node exactly when
the graph has no cycle. Along the loop the indegree of a node counts its edges
from the nodes that no wave holds yet.
-/

namespace AgentsRemember.Queue

open Layers

/-- An edge between two indexes. -/
def EdgeOf (edges : List (Nat × Nat)) (u v : Nat) : Prop := (u, v) ∈ edges

/-! ## Counting down -/

theorem getD_set_pred (counts : List Nat) (s v : Nat) :
    (counts.set s (counts.getD s 0 - 1)).getD v 0 =
      if v = s then counts.getD v 0 - 1 else counts.getD v 0 := by
  rw [List.getD_eq_getElem?_getD, List.getElem?_set]
  by_cases hv : s = v
  · subst hv
    rw [if_pos rfl, if_pos rfl]
    by_cases hs : s < counts.length
    · rw [if_pos hs]
      rfl
    · rw [if_neg hs, List.getD_eq_getElem?_getD, List.getElem?_eq_none (not_lt.mp hs)]
      rfl
  · rw [if_neg hv, if_neg (Ne.symm hv), List.getD_eq_getElem?_getD]

/-- Each visit of a successor takes one off. -/
theorem foldl_visitSuccessor_fst (successors : List Nat) (acc : List Nat × List Nat) (v : Nat) :
    (successors.foldl visitSuccessor acc).1.getD v 0 =
      acc.1.getD v 0 - successors.count v := by
  induction successors generalizing acc with
  | nil => simp
  | cons s rest ih =>
    rw [List.foldl_cons, ih]
    show (acc.1.set s (acc.1.getD s 0 - 1)).getD v 0 - rest.count v = _
    rw [getD_set_pred, List.count_cons]
    by_cases hv : v = s
    · subst hv
      simp only [if_true, beq_self_eq_true]
      omega
    · rw [if_neg hv, if_neg (by simpa using Ne.symm hv)]
      omega

/-- A node that comes down to nothing is ready next, once. -/
theorem foldl_visitSuccessor_snd (successors : List Nat) (acc : List Nat × List Nat)
    (hcount : ∀ v, successors.count v ≤ acc.1.getD v 0) :
    ∃ next, (successors.foldl visitSuccessor acc).2 = acc.2 ++ next ∧ next.Nodup ∧
      ∀ v, v ∈ next ↔ v ∈ successors ∧ acc.1.getD v 0 = successors.count v := by
  induction successors generalizing acc with
  | nil => exact ⟨[], by simp, .nil, by simp⟩
  | cons s rest ih =>
    obtain ⟨counts, ready⟩ := acc
    dsimp only at hcount
    -- a visit takes one edge from the count and one from the list
    have hpred : ∀ v, rest.count v ≤ (counts.set s (counts.getD s 0 - 1)).getD v 0 := by
      intro v
      have hv := hcount v
      rw [List.count_cons] at hv
      rw [getD_set_pred]
      by_cases hvs : v = s
      · subst hvs
        simp only [if_true, beq_self_eq_true] at hv ⊢
        omega
      · rw [if_neg hvs]
        omega
    obtain ⟨next, hnext, hnodup, hmem⟩ := ih (visitSuccessor (counts, ready) s) hpred
    have hcounts : ∀ v, (visitSuccessor (counts, ready) s).1.getD v 0 =
        if v = s then counts.getD v 0 - 1 else counts.getD v 0 := getD_set_pred counts s
    have hs : rest.count s + 1 ≤ counts.getD s 0 := by simpa using hcount s
    rw [List.foldl_cons, hnext]
    by_cases hzero : counts.getD s 0 - 1 = 0
    · -- the last visit of this successor
      have hgone : s ∉ rest := by
        rw [← List.count_eq_zero]
        omega
      refine ⟨s :: next, ?_, ?_, ?_⟩
      · show (if counts.getD s 0 - 1 = 0 then ready ++ [s] else ready) ++ next = _
        rw [if_pos hzero, List.append_assoc, List.singleton_append]
      · exact List.nodup_cons.mpr ⟨fun hin => hgone ((hmem s).mp hin).1, hnodup⟩
      · intro v
        rw [List.mem_cons, List.mem_cons, hmem, hcounts, List.count_cons]
        by_cases hv : v = s
        · subst hv
          simp only [true_or, true_and, if_true, beq_self_eq_true, true_iff]
          rw [List.count_eq_zero.mpr hgone]
          omega
        · rw [if_neg hv, if_neg (by simpa using Ne.symm hv)]
          simp [hv]
    · refine ⟨next, ?_, hnodup, ?_⟩
      · show (if counts.getD s 0 - 1 = 0 then ready ++ [s] else ready) ++ next = _
        rw [if_neg hzero]
      · intro v
        rw [List.mem_cons, hmem, hcounts, List.count_cons]
        by_cases hv : v = s
        · subst hv
          simp only [if_true, beq_self_eq_true, true_or, true_and]
          constructor
          · omega
          · intro heq
            refine ⟨?_, by omega⟩
            rw [← List.count_pos_iff]
            omega
        · rw [if_neg hv, if_neg (by simpa using Ne.symm hv)]
          simp [hv]

/-! ## One wave -/

section waves
variable {size : Nat} {edges : List (Nat × Nat)}

/-- The edges into a node from nodes outside of a list. -/
def edgesLeft (edges : List (Nat × Nat)) (peeled : List Nat) (v : Nat) : Nat :=
  edges.countP fun e => e.2 = v ∧ e.1 ∉ peeled

/-- What is counted falls into two kinds. -/
theorem countP_of_kinds {α : Type} {p q r : α → Bool} {xs : List α}
    (h : ∀ x ∈ xs, (p x).toNat = (q x).toNat + (r x).toNat) :
    xs.countP p = xs.countP q + xs.countP r := by
  induction xs with
  | nil => rfl
  | cons x xs ih =>
    have hx := h x List.mem_cons_self
    rw [List.countP_cons, List.countP_cons, List.countP_cons,
      ih fun y hy => h y (List.mem_cons_of_mem _ hy)]
    cases hp : p x <;> cases hq : q x <;> cases hr : r x <;> simp [hp, hq, hr] at hx ⊢ <;> omega

theorem count_flatMap_successorsOf {wave : List Nat} (hnodup : wave.Nodup) (v : Nat) :
    (wave.flatMap (successorsOf edges)).count v =
      edges.countP fun e => e.2 = v ∧ e.1 ∈ wave := by
  induction wave with
  | nil => simp
  | cons u wave ih =>
    obtain ⟨hu, hnodup⟩ := List.nodup_cons.mp hnodup
    have hkinds : edges.countP (fun e => decide (e.2 = v ∧ e.1 ∈ u :: wave)) =
        edges.countP (fun e => decide (e.2 = v ∧ e.1 = u)) +
          edges.countP (fun e => decide (e.2 = v ∧ e.1 ∈ wave)) := by
      apply countP_of_kinds
      intro e _
      by_cases hue : e.1 = u
      · by_cases hv : e.2 = v <;> simp [hue, hv, hu]
      · by_cases hv : e.2 = v <;> simp [hue, hv]
    rw [List.flatMap_cons, List.count_append, ih hnodup, hkinds]
    unfold successorsOf
    rw [List.count, List.countP_map, List.countP_filter, Nat.add_right_cancel_iff]
    apply List.countP_congr
    intro e _
    simp

/-- A wave takes its own edges off what is left. -/
theorem edgesLeft_append (peeled wave : List Nat) (hnew : ∀ u ∈ wave, u ∉ peeled) (v : Nat) :
    edgesLeft edges peeled v = edgesLeft edges (peeled ++ wave) v +
      edges.countP fun e => e.2 = v ∧ e.1 ∈ wave := by
  apply countP_of_kinds
  intro e _
  by_cases hv : e.2 = v
  · by_cases hw : e.1 ∈ wave
    · simp [hv, hw, hnew e.1 hw]
    · simp [hv, hw]
  · simp [hv]

/-- What the loop knows in front of a wave: the peeled nodes are the layers so far,
and the ready nodes are the next. -/
structure Peeling (size : Nat) (edges : List (Nat × Nat)) (k : Nat) (peeled indegree ready : List Nat) :
    Prop where
  peeled_iff : ∀ v, v ∈ peeled ↔ v < size ∧ ¬Chain (EdgeOf edges) k v
  distinct : peeled.Nodup
  indegree_eq : ∀ v, indegree.getD v 0 = edgesLeft edges peeled v
  ready_iff : ∀ v, v ∈ ready ↔ v < size ∧ Layer (EdgeOf edges) k v
  readyOnce : ready.Nodup

theorem Peeling.step (hsize : ∀ e ∈ edges, e.1 < size ∧ e.2 < size) {k : Nat} {peeled indegree ready wave : List Nat}
    (h : Peeling size edges k peeled indegree ready) (hwave : wave.Perm ready) :
    ∃ left next, (wave.flatMap (successorsOf edges)).foldl visitSuccessor (indegree, []) =
        (left, next) ∧ Peeling size edges (k + 1) (peeled ++ wave) left next := by
  have hmem : ∀ u, u ∈ wave ↔ u < size ∧ Layer (EdgeOf edges) k u :=
    fun u => hwave.mem_iff.trans (h.ready_iff u)
  have hnodup : wave.Nodup := hwave.nodup_iff.mpr h.readyOnce
  have hnew : ∀ u ∈ wave, u ∉ peeled := by
    intro u hu hpeeled
    exact ((h.peeled_iff u).mp hpeeled).2 (layer_iff.mp ((hmem u).mp hu).2).1
  have hpeeled : ∀ v, v ∈ peeled ++ wave ↔ v < size ∧ ¬Chain (EdgeOf edges) (k + 1) v := by
    intro v
    rw [List.mem_append, h.peeled_iff, hmem, chain_succ_iff]
    by_cases hchain : Chain (EdgeOf edges) k v
    · simp [hchain]
    · have hlayer : ¬Layer (EdgeOf edges) k v := fun hl => hchain (layer_iff.mp hl).1
      simp [hchain, hlayer]
  have hcount : ∀ v, (wave.flatMap (successorsOf edges)).count v =
      edges.countP fun e => e.2 = v ∧ e.1 ∈ wave := count_flatMap_successorsOf hnodup
  have hsplit : ∀ v, indegree.getD v 0 = edgesLeft edges (peeled ++ wave) v +
      (wave.flatMap (successorsOf edges)).count v := by
    intro v
    rw [h.indegree_eq, hcount, edgesLeft_append peeled wave hnew]
  obtain ⟨next, hnext, hnextOnce, hnextMem⟩ := foldl_visitSuccessor_snd
    (wave.flatMap (successorsOf edges)) (indegree, []) fun v => by
      show _ ≤ indegree.getD v 0
      rw [hsplit]
      omega
  refine ⟨_, next, Prod.ext rfl (by simpa using hnext), ?_⟩
  constructor
  · exact hpeeled
  · exact List.nodup_append.mpr ⟨h.distinct, hnodup, fun a ha b hb heq => hnew b hb (heq ▸ ha)⟩
  · intro v
    rw [foldl_visitSuccessor_fst]
    show indegree.getD v 0 - _ = _
    rw [hsplit]
    omega
  · intro v
    rw [hnextMem]
    show _ ∧ indegree.getD v 0 = _ ↔ _
    rw [hsplit, layer_iff_peeled]
    -- no edge is left, and some edge was taken off
    have hleft : edgesLeft edges (peeled ++ wave) v + (wave.flatMap (successorsOf edges)).count v =
        (wave.flatMap (successorsOf edges)).count v ↔
          ∀ u, EdgeOf edges u v → ¬Chain (EdgeOf edges) (k + 1) u := by
      rw [Nat.add_eq_right]
      unfold edgesLeft
      rw [List.countP_eq_zero]
      constructor
      · intro hzero u hu
        have hin : u ∈ peeled ++ wave := by
          by_contra hout
          exact hzero (u, v) hu (decide_eq_true ⟨rfl, hout⟩)
        exact ((hpeeled u).mp hin).2
      · rintro hdone ⟨u, w⟩ he hboth
        obtain ⟨rfl, hout⟩ := of_decide_eq_true hboth
        exact hout ((hpeeled u).mpr ⟨(hsize _ he).1, hdone u he⟩)
    rw [hleft]
    constructor
    · rintro ⟨hv, hdone⟩
      obtain ⟨u, hu, huv⟩ := List.mem_flatMap.mp hv
      have hedge : EdgeOf edges u v := by
        unfold successorsOf at huv
        obtain ⟨⟨a, b⟩, he, rfl⟩ := List.mem_map.mp huv
        obtain ⟨he, hau⟩ := List.mem_filter.mp he
        rw [← of_decide_eq_true hau]
        exact he
      exact ⟨(hsize _ hedge).2, ⟨u, hedge, (layer_iff.mp ((hmem u).mp hu).2).1⟩, hdone⟩
    · rintro ⟨-, ⟨u, hedge, hchain⟩, hdone⟩
      refine ⟨List.mem_flatMap.mpr ⟨u, ?_, ?_⟩, hdone⟩
      · exact (hmem u).mpr ⟨(hsize _ hedge).1, layer_iff.mpr ⟨hchain, hdone u hedge⟩⟩
      · exact List.mem_map.mpr ⟨(u, v), List.mem_filter.mpr ⟨hedge, decide_eq_true rfl⟩, rfl⟩
  · exact hnextOnce

theorem Peeling.length_le {k : Nat} {peeled indegree ready : List Nat}
    (h : Peeling size edges k peeled indegree ready) : peeled.length ≤ size := by
  have hsub : peeled ⊆ List.range size :=
    fun v hv => List.mem_range.mpr ((h.peeled_iff v).mp hv).1
  simpa using (h.distinct.subperm hsub).length_le

/-- In front of the first wave. -/
theorem Peeling.start {nodes : List SprintExecutionNode} (hnodes : nodes.length = size)
    (hsize : ∀ e ∈ edges, e.1 < size ∧ e.2 < size) :
    Peeling size edges 0 [] (indegrees nodes edges)
      ((List.range nodes.length).filter fun index => (indegrees nodes edges).getD index 0 = 0) := by
  have hindegree : ∀ v, (indegrees nodes edges).getD v 0 = edgesLeft edges [] v := by
    intro v
    unfold indegrees edgesLeft
    rw [List.getD_eq_getElem?_getD, List.getElem?_map]
    by_cases hv : v < nodes.length
    · rw [List.getElem?_range hv]
      simp
    · have hnone : (List.range nodes.length)[v]? = none := by
        rw [List.getElem?_eq_none]
        simpa using not_lt.mp hv
      rw [hnone]
      symm
      show List.countP _ edges = 0
      rw [List.countP_eq_zero]
      intro e he hboth
      have hlt := (hsize e he).2
      rw [(of_decide_eq_true hboth).1, ← hnodes] at hlt
      exact hv hlt
  constructor
  · simp [Chain]
  · exact .nil
  · exact hindegree
  · intro v
    rw [List.mem_filter, List.mem_range, hnodes, layer_iff_peeled, decide_eq_true_eq, hindegree]
    apply and_congr_right
    intro _
    unfold edgesLeft
    rw [List.countP_eq_zero]
    constructor
    · intro hzero
      exact ⟨trivial, fun u hu _ => hzero (u, v) hu (by simp)⟩
    · rintro ⟨-, hnone⟩ ⟨u, w⟩ he hboth
      obtain ⟨rfl, -⟩ := of_decide_eq_true hboth
      exact hnone u he trivial
  · exact List.nodup_range.filter _

/-! ## The waves -/

/-- Waves from a layer on: each in the order of the indexes and with its whole
layer, and no layer behind the last. -/
def Peels (size : Nat) (edges : List (Nat × Nat)) : Nat → List (List Nat) → Prop
  | k, [] => ∀ v < size, ¬Layer (EdgeOf edges) k v
  | k, wave :: waves => wave.Pairwise (· < ·) ∧
      (∀ v, v ∈ wave ↔ v < size ∧ Layer (EdgeOf edges) k v) ∧ Peels size edges (k + 1) waves

theorem waveLoop_peels (hsize : ∀ e ∈ edges, e.1 < size ∧ e.2 < size) {fuel k : Nat} {peeled indegree ready : List Nat}
    (h : Peeling size edges k peeled indegree ready) (hfuel : size < peeled.length + fuel) :
    Peels size edges k (waveLoop edges fuel indegree ready) := by
  induction fuel generalizing k peeled indegree ready with
  | zero => exact absurd h.length_le (by omega)
  | succ fuel ih =>
    rw [waveLoop]
    cases ready with
    | nil =>
      intro v hv hlayer
      simpa using (h.ready_iff v).mpr ⟨hv, hlayer⟩
    | cons first rest =>
      have hwave := List.mergeSort_perm (first :: rest) fun a b => decide (a ≤ b)
      obtain ⟨left, next, hfold, hnext⟩ := h.step hsize hwave
      simp only [List.isEmpty_cons, Bool.false_eq_true, if_false, hfold]
      refine ⟨?_, fun v => hwave.mem_iff.trans (h.ready_iff v), ih hnext ?_⟩
      · have hsorted : ((first :: rest).mergeSort fun a b => decide (a ≤ b)).Pairwise (· ≤ ·) :=
          List.pairwise_mergeSort' _ _
        have honce := hwave.nodup_iff.mpr h.readyOnce
        exact (hsorted.and honce).imp fun hle => lt_of_le_of_ne hle.1 hle.2
      · rw [List.length_append, hwave.length_eq, List.length_cons]
        omega

theorem Peels.mem_flatten {k : Nat} {waves : List (List Nat)} (h : Peels size edges k waves)
    (v : Nat) : v ∈ waves.flatten ↔ v < size ∧ Chain (EdgeOf edges) k v ∧
      ¬Chain (EdgeOf edges) (k + waves.length) v := by
  induction waves generalizing k with
  | nil => simp
  | cons wave waves ih =>
    obtain ⟨-, hmem, hrest⟩ := h
    rw [List.flatten_cons, List.mem_append, hmem, ih hrest, chain_succ_iff, List.length_cons,
      show k + 1 + waves.length = k + (waves.length + 1) by omega]
    constructor
    · rintro (⟨hv, hlayer⟩ | ⟨hv, ⟨hchain, -⟩, hlast⟩)
      · obtain ⟨hchain, hlast⟩ := layer_iff.mp hlayer
        exact ⟨hv, hchain, fun hlong => hlast (hlong.anti (by omega))⟩
      · exact ⟨hv, hchain, hlast⟩
    · rintro ⟨hv, hchain, hlast⟩
      by_cases hlayer : Layer (EdgeOf edges) k v
      · exact .inl ⟨hv, hlayer⟩
      · exact .inr ⟨hv, ⟨hchain, hlayer⟩, hlast⟩

theorem Peels.nodup_flatten {k : Nat} {waves : List (List Nat)} (h : Peels size edges k waves) :
    waves.flatten.Nodup := by
  induction waves generalizing k with
  | nil => exact .nil
  | cons wave waves ih =>
    obtain ⟨hsorted, hmem, hrest⟩ := h
    rw [List.flatten_cons, List.nodup_append]
    refine ⟨hsorted.imp fun hlt => hlt.ne, ih hrest, ?_⟩
    rintro v hv w hw rfl
    -- a later wave is of vertices with longer chains
    exact (layer_iff.mp ((hmem v).mp hv).2).2 ((hrest.mem_flatten v).mp hw).2.1

theorem Peels.stop {k : Nat} {waves : List (List Nat)} (h : Peels size edges k waves) :
    ∀ v < size, ¬Layer (EdgeOf edges) (k + waves.length) v := by
  induction waves generalizing k with
  | nil => exact h
  | cons wave waves ih =>
    have hrest := ih h.2.2
    rwa [show k + 1 + waves.length = k + (wave :: waves).length by
      rw [List.length_cons]; omega] at hrest

/-- The waves hold every node exactly when no node is on a cycle. -/
theorem Peels.exhausted_iff (hsize : ∀ e ∈ edges, e.1 < size ∧ e.2 < size)
    {waves : List (List Nat)} (h : Peels size edges 0 waves) :
    (waves.map List.length).sum = size ↔ Acyclic (EdgeOf edges) := by
  have hlength : (waves.map List.length).sum = waves.flatten.length := List.length_flatten.symm
  have hsub : waves.flatten ⊆ List.range size :=
    fun v hv => List.mem_range.mpr ((h.mem_flatten v).mp hv).1
  have hsubperm : waves.flatten.Subperm (List.range size) := h.nodup_flatten.subperm hsub
  rw [hlength]
  constructor
  · intro hfull v hcycle
    have hperm : waves.flatten.Perm (List.range size) :=
      hsubperm.perm_of_length_le (by rw [List.length_range, hfull])
    obtain ⟨u, -, huv⟩ := Relation.TransGen.tail'_iff.mp hcycle
    have hv : v ∈ waves.flatten := hperm.mem_iff.mpr (List.mem_range.mpr (hsize _ huv).2)
    exact ((h.mem_flatten v).mp hv).2.2 (chain_of_transGen hcycle _)
  · intro hacyclic
    have hnone := no_chain_of_stopped (Set.finite_lt_nat size)
      (fun u v hu => (hsize (u, v) hu).1) hacyclic h.stop
    have hall : List.range size ⊆ waves.flatten := by
      intro v hv
      have hlt := List.mem_range.mp hv
      exact (h.mem_flatten v).mpr ⟨hlt, trivial, hnone v hlt⟩
    have hle := (List.nodup_range.subperm hall).length_le
    have hge := hsubperm.length_le
    rw [List.length_range] at hle hge
    omega

end waves

end AgentsRemember.Queue
