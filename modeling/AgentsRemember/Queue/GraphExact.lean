import AgentsRemember.Queue.GraphValidation

/-!
# Queue — GraphExact

What the admission of an execution graph accepts, in the terms of its nodes, and
what its waves are.
-/

namespace AgentsRemember.Queue

open Attempts Layers

section nodes
variable (nodes : List SprintExecutionNode) (edges : List SprintExecutionEdge)

/-- The edge leads from the one node to the other. -/
def ResolvesTo (edge : SprintExecutionEdge) (predecessor successor : SprintExecutionNode) : Prop :=
  resolveGraphEndpoint nodes edge.predecessor = .ok predecessor ∧
    resolveGraphEndpoint nodes edge.successor = .ok successor

/-- The resolved graph. -/
def ResolvedEdge (predecessor successor : SprintExecutionNode) : Prop :=
  ∃ edge ∈ edges, ResolvesTo nodes edge predecessor successor

/-- What a graph must be to be admitted. -/
structure ValidGraph : Prop where
  nodesOnce : nodes.Nodup
  lumpOrSegments : LumpOrSegments nodes
  leafsOnce : (nodes.flatMap SprintExecutionNode.leafIds).Nodup
  resolved : ∀ edge ∈ edges, ∃ predecessor successor,
    ResolvesTo nodes edge predecessor successor ∧ predecessor ≠ successor
  edgesOnce : edges.Pairwise fun a b =>
    ∀ predecessor successor, ResolvesTo nodes a predecessor successor →
      ¬ResolvesTo nodes b predecessor successor
  acyclic : Acyclic (ResolvedEdge nodes edges)

end nodes

/-! ## Indexes and nodes -/

section indexes
variable {nodes : List SprintExecutionNode} {edges : List SprintExecutionEdge}
  {resolved : List (Nat × Nat)}

theorem resolveGraphEndpoint_eq_ok {endpoint : SprintExecutionEndpoint}
    {node : SprintExecutionNode} :
    resolveGraphEndpoint nodes endpoint = .ok node ↔
      ∃ i, resolveEndpoint nodes endpoint = .ok (node, i) := by
  rw [resolveGraphEndpoint_eq]
  cases resolveEndpoint nodes endpoint with
  | error refusal => simp [Except.map]
  | ok found =>
    obtain ⟨found, i⟩ := found
    simp [Except.map]

theorem index_inj (hnodup : nodes.Nodup) {node : SprintExecutionNode} {i j : Nat}
    (hi : nodes[i]? = some node) (hj : nodes[j]? = some node) : i = j := by
  obtain ⟨hlt, hi⟩ := List.getElem?_eq_some_iff.mp hi
  obtain ⟨hlt', hj⟩ := List.getElem?_eq_some_iff.mp hj
  exact (hnodup.getElem_inj_iff).mp (hi.trans hj.symm)

/-- An edge resolves to indexes as it does to their nodes. -/
theorem resolveEdge_eq_ok_iff (hnodup : nodes.Nodup) {edge : SprintExecutionEdge} {e : Nat × Nat} :
    resolveEdge nodes edge = .ok e ↔ e.1 ≠ e.2 ∧ ∃ p s, ResolvesTo nodes edge p s ∧
      nodes[e.1]? = some p ∧ nodes[e.2]? = some s := by
  constructor
  · intro h
    obtain ⟨p, s, hp, hs⟩ := resolveEdge_eq_ok h
    refine ⟨?_, p, s, ⟨resolveGraphEndpoint_eq_ok.mpr ⟨_, hp⟩, resolveGraphEndpoint_eq_ok.mpr ⟨_, hs⟩⟩,
      resolveEndpoint_eq_ok hp, resolveEndpoint_eq_ok hs⟩
    unfold resolveEdge at h
    rw [hp, hs] at h
    intro heq
    simp [bind, Except.bind, heq] at h
  · rintro ⟨hne, p, s, ⟨hp, hs⟩, hep, hes⟩
    obtain ⟨i, hi⟩ := resolveGraphEndpoint_eq_ok.mp hp
    obtain ⟨j, hj⟩ := resolveGraphEndpoint_eq_ok.mp hs
    have hei : i = e.1 := index_inj hnodup (resolveEndpoint_eq_ok hi) hep
    have hej : j = e.2 := index_inj hnodup (resolveEndpoint_eq_ok hj) hes
    unfold resolveEdge
    rw [hi, hj]
    subst hei hej
    simp [bind, Except.bind, hne]

theorem resolvesTo_functional {edge : SprintExecutionEdge} {p s p' s' : SprintExecutionNode}
    (h : ResolvesTo nodes edge p s) (h' : ResolvesTo nodes edge p' s') : p = p' ∧ s = s' :=
  ⟨Except.ok.inj (h.1.symm.trans h'.1), Except.ok.inj (h.2.symm.trans h'.2)⟩

theorem pairwise_of_mapM {α β ε : Type} {f : α → Except ε β} {P : α → α → Prop}
    {Q : β → β → Prop}
    (hPQ : ∀ {x x' y y'}, f x = .ok y → f x' = .ok y' → (P x x' ↔ Q y y'))
    {xs : List α} {ys : List β} (h : xs.mapM f = .ok ys) : xs.Pairwise P ↔ ys.Pairwise Q := by
  induction xs generalizing ys with
  | nil =>
    cases h
    simp
  | cons x xs ih =>
    rw [List.mapM_cons] at h
    obtain ⟨y, hy, h⟩ := bind_eq_ok.mp h
    obtain ⟨rest, hrest, h⟩ := bind_eq_ok.mp h
    cases h
    rw [List.pairwise_cons, List.pairwise_cons, ih hrest]
    apply and_congr_left
    intro _
    constructor
    · intro hall y' hy'
      obtain ⟨x', hx', hxy'⟩ := (mem_mapM hrest y').mp hy'
      exact (hPQ hy hxy').mp (hall x' hx')
    · intro hall x' hx'
      obtain ⟨y', hxy'⟩ := ok_of_mem_mapM hrest hx'
      exact (hPQ hy hxy').mpr (hall y' ((mem_mapM hrest y').mpr ⟨x', hx', hxy'⟩))

/-- The edges resolve when each has two nodes, and no two edges the same. -/
theorem exists_resolveEdges (hnodup : nodes.Nodup) :
    (∃ resolved, resolveEdges nodes edges = .ok resolved) ↔
      (∀ edge ∈ edges, ∃ p s, ResolvesTo nodes edge p s ∧ p ≠ s) ∧
        edges.Pairwise fun a b => ∀ p s, ResolvesTo nodes a p s → ¬ResolvesTo nodes b p s := by
  have hedge : ∀ edge, (∃ e, resolveEdge nodes edge = .ok e) ↔
      ∃ p s, ResolvesTo nodes edge p s ∧ p ≠ s := by
    intro edge
    constructor
    · rintro ⟨e, he⟩
      obtain ⟨hne, p, s, hto, hp, hs⟩ := (resolveEdge_eq_ok_iff hnodup).mp he
      refine ⟨p, s, hto, ?_⟩
      rintro rfl
      exact hne (index_inj hnodup hp hs)
    · rintro ⟨p, s, hto, hne⟩
      obtain ⟨i, hi⟩ := resolveGraphEndpoint_eq_ok.mp hto.1
      obtain ⟨j, hj⟩ := resolveGraphEndpoint_eq_ok.mp hto.2
      have hp := resolveEndpoint_eq_ok hi
      have hs := resolveEndpoint_eq_ok hj
      refine ⟨(i, j), (resolveEdge_eq_ok_iff hnodup).mpr ⟨?_, p, s, hto, hp, hs⟩⟩
      intro (heq : i = j)
      subst heq
      exact hne (Option.some.inj (hp.symm.trans hs))
  have honce : ∀ {resolved}, edges.mapM (resolveEdge nodes) = .ok resolved →
      ((edges.Pairwise fun a b => ∀ p s, ResolvesTo nodes a p s → ¬ResolvesTo nodes b p s) ↔
        resolved.Nodup) := by
    intro resolved h
    apply pairwise_of_mapM _ h
    intro a b e f ha hb
    obtain ⟨-, p, s, hto, hp, hs⟩ := (resolveEdge_eq_ok_iff hnodup).mp ha
    obtain ⟨-, p', s', hto', hp', hs'⟩ := (resolveEdge_eq_ok_iff hnodup).mp hb
    constructor
    · rintro hdiffer rfl
      rw [hp] at hp'
      rw [hs] at hs'
      cases hp'
      cases hs'
      exact hdiffer p s hto hto'
    · rintro hne p₁ s₁ ha₁ hb₁
      obtain ⟨rfl, rfl⟩ := resolvesTo_functional hto ha₁
      obtain ⟨rfl, rfl⟩ := resolvesTo_functional hto' hb₁
      exact hne (Prod.ext (index_inj hnodup hp hp') (index_inj hnodup hs hs'))
  unfold resolveEdges
  constructor
  · rintro ⟨resolved, h⟩
    obtain ⟨found, hfound, h⟩ := bind_eq_ok.mp h
    split at h
    · rename_i hnodupFound
      refine ⟨fun edge hmem => (hedge edge).mp ?_, (honce hfound).mpr hnodupFound⟩
      exact exists_mapM_eq_ok.mp ⟨found, hfound⟩ edge hmem
    · cases h
  · rintro ⟨hall, hdiffer⟩
    obtain ⟨found, hfound⟩ := exists_mapM_eq_ok.mpr fun edge hmem => (hedge edge).mpr (hall edge hmem)
    exact ⟨found, bind_eq_ok.mpr ⟨found, hfound, if_pos ((honce hfound).mp hdiffer)⟩⟩

/-- What resolves is in range, and the resolved graph is that of the nodes. -/
theorem mem_resolved_iff (hnodup : nodes.Nodup) (h : resolveEdges nodes edges = .ok resolved)
    {i j : Nat} : (i, j) ∈ resolved ↔ ∃ p s, ResolvedEdge nodes edges p s ∧ i ≠ j ∧
      nodes[i]? = some p ∧ nodes[j]? = some s := by
  obtain ⟨found, hfound, h⟩ := bind_eq_ok.mp h
  split at h
  · cases h
    rw [mem_mapM hfound]
    simp only [resolveEdge_eq_ok_iff hnodup]
    constructor
    · rintro ⟨edge, hedge, hne, p, s, hto, hp, hs⟩
      exact ⟨p, s, ⟨edge, hedge, hto⟩, hne, hp, hs⟩
    · rintro ⟨p, s, ⟨edge, hedge, hto⟩, hne, hp, hs⟩
      exact ⟨edge, hedge, hne, p, s, hto, hp, hs⟩
  · cases h

/-! ## The resolved graph over indexes -/

/-- The node at an index. -/
def NodeAt (nodes : List SprintExecutionNode) (i : Nat) (node : SprintExecutionNode) : Prop :=
  nodes[i]? = some node

section admitted
variable (hnodup : nodes.Nodup) (h : resolveEdges nodes edges = .ok resolved)
include hnodup h

theorem resolved_lt : ∀ e ∈ resolved, e.1 < nodes.length ∧ e.2 < nodes.length := by
  rintro ⟨i, j⟩ he
  obtain ⟨p, s, -, -, hp, hs⟩ := (mem_resolved_iff hnodup h).mp he
  exact ⟨(List.getElem?_eq_some_iff.mp hp).1, (List.getElem?_eq_some_iff.mp hs).1⟩

theorem edgeOf_back ⦃i j : Nat⦄ ⦃s : SprintExecutionNode⦄ (he : EdgeOf resolved i j)
    (hs : NodeAt nodes j s) : ∃ p, NodeAt nodes i p ∧ ResolvedEdge nodes edges p s := by
  obtain ⟨p, s', hedge, -, hp, hs'⟩ := (mem_resolved_iff hnodup h).mp he
  rw [show nodes[j]? = some s from hs] at hs'
  cases hs'
  exact ⟨p, hp, hedge⟩

theorem edgeOf_forth ⦃p s : SprintExecutionNode⦄ ⦃j : Nat⦄ (hedge : ResolvedEdge nodes edges p s)
    (hs : NodeAt nodes j s) : ∃ i, NodeAt nodes i p ∧ EdgeOf resolved i j := by
  obtain ⟨edge, hmem, hto⟩ := hedge
  obtain ⟨hall, -⟩ := (exists_resolveEdges hnodup).mp ⟨resolved, h⟩
  obtain ⟨p', s', hto', hne⟩ := hall edge hmem
  obtain ⟨rfl, rfl⟩ := resolvesTo_functional hto hto'
  obtain ⟨i, hi⟩ := resolveGraphEndpoint_eq_ok.mp hto.1
  have hp := resolveEndpoint_eq_ok hi
  refine ⟨i, hp, (mem_resolved_iff hnodup h).mpr ⟨p, s, ⟨edge, hmem, hto⟩, ?_, hp, hs⟩⟩
  rintro rfl
  exact hne (Option.some.inj (hp.symm.trans hs))

theorem acyclic_edgeOf_iff : Acyclic (EdgeOf resolved) ↔ Acyclic (ResolvedEdge nodes edges) := by
  constructor
  · intro hacyclic
    apply hacyclic.of_simulation (R := fun node i => NodeAt nodes i node)
    · intro p s j hedge hs
      exact edgeOf_forth hnodup h hedge hs
    · exact fun node i j hi hj => index_inj hnodup hi hj
    · rintro p s ⟨edge, -, hto⟩
      obtain ⟨j, hj⟩ := resolveGraphEndpoint_eq_ok.mp hto.2
      exact ⟨j, resolveEndpoint_eq_ok hj⟩
  · intro hacyclic
    apply hacyclic.of_simulation (edgeOf_back hnodup h)
    · exact fun i p s hp hs => Option.some.inj (hp.symm.trans hs)
    · intro i j he
      obtain ⟨-, s, -, -, -, hs⟩ := (mem_resolved_iff hnodup h).mp he
      exact ⟨s, hs⟩

theorem layer_nodeAt_iff {k i : Nat} {node : SprintExecutionNode} (hnode : NodeAt nodes i node) :
    Layer (EdgeOf resolved) k i ↔ Layer (ResolvedEdge nodes edges) k node := by
  have hchain : ∀ k, Chain (EdgeOf resolved) k i ↔ Chain (ResolvedEdge nodes edges) k node :=
    fun k => chain_iff (edgeOf_back hnodup h) (edgeOf_forth hnodup h) hnode
  rw [layer_iff, layer_iff, hchain, hchain]

end admitted

/-! ## The derived waves -/

/-- The waves of indexes. -/
def indexWaves (nodes : List SprintExecutionNode) (resolved : List (Nat × Nat)) :
    List (List Nat) :=
  waveLoop resolved (nodes.length + 1) (indegrees nodes resolved)
    ((List.range nodes.length).filter fun index => (indegrees nodes resolved).getD index 0 = 0)

theorem indexWaves_peels (hsize : ∀ e ∈ resolved, e.1 < nodes.length ∧ e.2 < nodes.length) :
    Peels nodes.length resolved 0 (indexWaves nodes resolved) :=
  waveLoop_peels hsize (.start rfl hsize) (by simp)

theorem deriveWaves_eq_ok (hsize : ∀ e ∈ resolved, e.1 < nodes.length ∧ e.2 < nodes.length)
    {waves : List (List SprintExecutionNode)} :
    deriveWaves nodes resolved = .ok waves ↔ Acyclic (EdgeOf resolved) ∧
      waves = (indexWaves nodes resolved).map fun wave => wave.filterMap fun i => nodes[i]? := by
  rw [← (indexWaves_peels hsize).exhausted_iff hsize]
  unfold deriveWaves
  show (if ((indexWaves nodes resolved).map List.length).sum = nodes.length then _ else _) = _ ↔ _
  split
  · rename_i hall
    constructor
    · intro hok
      cases hok
      exact ⟨hall, rfl⟩
    · rintro ⟨-, rfl⟩
      rfl
  · rename_i hnot
    constructor
    · intro hok
      cases hok
    · exact fun hok => absurd hok.1 hnot

theorem filterMap_getElem?_range :
    (List.range nodes.length).filterMap (fun i => nodes[i]?) = nodes := by
  induction nodes using List.reverseRecOn with
  | nil => rfl
  | append_singleton front node ih =>
    rw [List.length_append, List.length_singleton, List.range_succ, List.filterMap_append]
    have hfront : (List.range front.length).filterMap (fun i => (front ++ [node])[i]?) = front := by
      conv_rhs => rw [← ih]
      apply List.filterMap_congr
      intro i hi
      exact List.getElem?_append_left (List.mem_range.mp hi)
    rw [hfront]
    simp

theorem Peels.wave {size k : Nat} {waves : List (List Nat)} (h : Peels size resolved k waves)
    {i : Nat} {wave : List Nat} (hwave : waves[i]? = some wave) :
    wave.Pairwise (· < ·) ∧ ∀ v, v ∈ wave ↔ v < size ∧ Layer (EdgeOf resolved) (k + i) v := by
  induction waves generalizing k i with
  | nil => cases hwave
  | cons first rest ih =>
    obtain ⟨hsorted, hmem, hrest⟩ := h
    cases i with
    | zero =>
      cases hwave
      exact ⟨hsorted, hmem⟩
    | succ i =>
      have := ih hrest hwave
      rwa [show k + 1 + i = k + (i + 1) by omega] at this

/-- Every node is in one wave. -/
theorem indexWaves_perm (hsize : ∀ e ∈ resolved, e.1 < nodes.length ∧ e.2 < nodes.length)
    (hacyclic : Acyclic (EdgeOf resolved)) :
    (indexWaves nodes resolved).flatten.Perm (List.range nodes.length) := by
  have hpeels := indexWaves_peels hsize
  have hsub : (indexWaves nodes resolved).flatten ⊆ List.range nodes.length :=
    fun v hv => List.mem_range.mpr ((hpeels.mem_flatten v).mp hv).1
  have hall := (hpeels.exhausted_iff hsize).mpr hacyclic
  rw [← List.length_flatten] at hall
  exact (hpeels.nodup_flatten.subperm hsub).perm_of_length_le (by rw [List.length_range, hall])

theorem waves_spec (hnodup : nodes.Nodup) (h : resolveEdges nodes edges = .ok resolved)
    {waves : List (List SprintExecutionNode)} (hwaves : deriveWaves nodes resolved = .ok waves) :
    waves.flatten.Perm nodes ∧ ∀ k wave, waves[k]? = some wave → wave.Sublist nodes ∧
      ∀ node ∈ wave, Layer (ResolvedEdge nodes edges) k node := by
  have hsize := resolved_lt hnodup h
  obtain ⟨hacyclic, rfl⟩ := (deriveWaves_eq_ok hsize).mp hwaves
  constructor
  · rw [← List.filterMap_flatten]
    have hperm := (indexWaves_perm hsize hacyclic).filterMap fun i => nodes[i]?
    rwa [filterMap_getElem?_range] at hperm
  · intro k wave hwave
    rw [List.getElem?_map, Option.map_eq_some_iff] at hwave
    obtain ⟨indexes, hindexes, rfl⟩ := hwave
    obtain ⟨hsorted, hmem⟩ := (indexWaves_peels hsize).wave hindexes
    rw [Nat.zero_add] at hmem
    constructor
    · have hrange : indexes.Sublist (List.range nodes.length) := by
        apply List.sublist_of_subperm_of_pairwise (r := fun a b => a < b) _ hsorted
          List.pairwise_lt_range
        have honce : indexes.Nodup := hsorted.imp fun hlt => hlt.ne
        exact honce.subperm fun v hv => List.mem_range.mpr ((hmem v).mp hv).1
      have hsub := hrange.filterMap fun i => nodes[i]?
      rwa [filterMap_getElem?_range] at hsub
    · intro node hnode
      obtain ⟨i, hi, hat⟩ := List.mem_filterMap.mp hnode
      exact (layer_nodeAt_iff hnodup h hat).mp ((hmem i).mp hi).2

end indexes

/-- A graph is admitted exactly when it is valid; its waves hold every node once,
each the nodes of one layer as they are declared. -/
theorem validateGraph_exact (nodes : List SprintExecutionNode) (edges : List SprintExecutionEdge) :
    ((∃ analysis, validateGraph nodes edges = .ok analysis) ↔ ValidGraph nodes edges) ∧
      ∀ analysis, validateGraph nodes edges = .ok analysis →
        analysis.waves.flatten.Perm nodes ∧
          ∀ k wave, analysis.waves[k]? = some wave → wave.Sublist nodes ∧
            ∀ node ∈ wave, Layer (ResolvedEdge nodes edges) k node := by
  constructor
  · constructor
    · rintro ⟨analysis, h⟩
      obtain ⟨hnodup, howned, hleafs, hresolved, hwaves⟩ := validateGraph_eq_ok.mp h
      obtain ⟨hall, hdiffer⟩ := (exists_resolveEdges hnodup).mp ⟨_, hresolved⟩
      obtain ⟨hacyclic, -⟩ := (deriveWaves_eq_ok (resolved_lt hnodup hresolved)).mp hwaves
      exact ⟨hnodup, howned, hleafs, hall, hdiffer,
        (acyclic_edgeOf_iff hnodup hresolved).mp hacyclic⟩
    · intro h
      obtain ⟨resolved, hresolved⟩ :=
        (exists_resolveEdges h.nodesOnce).mpr ⟨h.resolved, h.edgesOnce⟩
      have hacyclic := (acyclic_edgeOf_iff h.nodesOnce hresolved).mpr h.acyclic
      have hwaves := (deriveWaves_eq_ok (resolved_lt h.nodesOnce hresolved)).mpr ⟨hacyclic, rfl⟩
      exact ⟨⟨resolved, _⟩, validateGraph_eq_ok.mpr
        ⟨h.nodesOnce, h.lumpOrSegments, h.leafsOnce, hresolved, hwaves⟩⟩
  · intro analysis h
    obtain ⟨hnodup, -, -, hresolved, hwaves⟩ := validateGraph_eq_ok.mp h
    exact waves_spec hnodup hresolved hwaves

/-! ## One edge between two masters -/

/-- A lump node. -/
def firstNode : SprintExecutionNode where
  ref := ⟨"repo", "first/task.json"⟩
  checked := by decide

/-- Another lump node. -/
def secondNode : SprintExecutionNode where
  ref := ⟨"repo", "second/task.json"⟩
  checked := by decide

/-- The second node waits for the first. -/
def oneEdge : SprintExecutionEdge := ⟨⟨firstNode.ref, none⟩, ⟨secondNode.ref, none⟩⟩

theorem oneEdge_resolvesTo : ResolvesTo [firstNode, secondNode] oneEdge firstNode secondNode := by
  constructor <;> decide

theorem oneEdge_valid : ValidGraph [firstNode, secondNode] [oneEdge] where
  nodesOnce := by decide
  lumpOrSegments := by
    unfold LumpOrSegments
    decide
  leafsOnce := by decide
  resolved := by
    intro edge hedge
    rw [List.mem_singleton.mp hedge]
    exact ⟨firstNode, secondNode, oneEdge_resolvesTo, by decide⟩
  edgesOnce := List.pairwise_singleton _ _
  acyclic := by
    have hends : ∀ p s, ResolvedEdge [firstNode, secondNode] [oneEdge] p s →
        p = firstNode ∧ s = secondNode := by
      rintro p s ⟨edge, hedge, hto⟩
      rw [List.mem_singleton.mp hedge] at hto
      exact resolvesTo_functional hto oneEdge_resolvesTo
    intro v hcycle
    obtain ⟨_, hfirst, -⟩ := Relation.TransGen.head'_iff.mp hcycle
    obtain ⟨_, -, hlast⟩ := Relation.TransGen.tail'_iff.mp hcycle
    have hv := (hends _ _ hfirst).1
    rw [(hends _ _ hlast).2] at hv
    exact absurd hv (by decide)

theorem validateGraph_exact_oneEdge :
    ∃ analysis, validateGraph [firstNode, secondNode] [oneEdge] = .ok analysis ∧
      analysis.waves.flatten.Perm [firstNode, secondNode] := by
  obtain ⟨analysis, h⟩ := (validateGraph_exact _ _).1.mpr oneEdge_valid
  exact ⟨analysis, h, ((validateGraph_exact _ _).2 analysis h).1⟩

end AgentsRemember.Queue
