import AgentsRemember.Queue.Deadlock

/-!
# Queue — Candidates

The derived placement of a master's leafs, and what the queue reports that a
candidate waits for: the placement maps every planned leaf to one segment of its
master, the index by documents follows it, and a candidate waits for exactly the
predecessors of its node whose masters are not terminal.
-/

namespace AgentsRemember.Queue

section placement
variable {graph : SprintExecutionGraph}

/-- The placement of the planned leafs of a segmented master. -/
structure PlacesLeafs (graph : SprintExecutionGraph) (ref : TaskDocumentRef)
    (planned : List String) (resolved : List TaskDocumentRef) (placement : LeafPlacement) :
    Prop where
  total : ∀ leaf ∈ planned, ∃! node, (leaf, node) ∈ placement.placed ++ placement.derived
  target : ∀ leaf node, (leaf, node) ∈ placement.placed ++ placement.derived ↔
    placement.target leaf = some node
  own : ∀ leaf node, placement.target leaf = some node → node ∈ segmentsFor graph ref
  authored : ∀ node ∈ segmentsFor graph ref, ∀ leaf ∈ node.leafIds,
    placement.target leaf = some node ∧ leaf ∉ placement.derived.map Prod.fst
  unplaced : ∀ leaf, Unplaced graph ref planned leaf → ∃ node,
    placement.target leaf = some node ∧
      PickedSegment graph (segmentsFor graph ref) resolved node placement.derivedAllBlocked
  flagged : placement.derivedAllBlocked = true → ∃ leaf, Unplaced graph ref planned leaf

section segmented
variable {ref : TaskDocumentRef} {planned : List String} {resolved : List TaskDocumentRef}
  (hsegments : segmentsFor graph ref ≠ [])
include hsegments

section picked
variable {target : SprintExecutionNode}
  (htarget : (latestUnblockedSegment graph (segmentsFor graph ref) resolved).1 = some target)
include htarget

theorem mem_derived {leaf : String} {node : SprintExecutionNode} :
    (leaf, node) ∈ (derivedLeafPlacement graph ref planned resolved).derived ↔
      Unplaced graph ref planned leaf ∧ node = target := by
  rw [derivedLeafPlacement_derived hsegments, htarget, List.mem_filterMap]
  constructor
  · rintro ⟨l, hl, he⟩
    cases he
    exact ⟨mem_unplaced.mp hl, rfl⟩
  · rintro ⟨hleaf, rfl⟩
    exact ⟨leaf, mem_unplaced.mpr hleaf, rfl⟩

/-- A leaf is mapped to the segment that names it, or, planned and named by none,
to the one that is picked. -/
theorem mem_mapped {leaf : String} {node : SprintExecutionNode} :
    (leaf, node) ∈ (derivedLeafPlacement graph ref planned resolved).placed ++
        (derivedLeafPlacement graph ref planned resolved).derived ↔
      (node ∈ segmentsFor graph ref ∧ leaf ∈ node.leafIds) ∨
        (Unplaced graph ref planned leaf ∧ node = target) := by
  rw [List.mem_append, derivedLeafPlacement_placed hsegments, mem_placedLeafs,
    mem_derived hsegments htarget]

theorem mapped_once {leaf : String} {node other : SprintExecutionNode}
    (hnode : (leaf, node) ∈ (derivedLeafPlacement graph ref planned resolved).placed ++
      (derivedLeafPlacement graph ref planned resolved).derived)
    (hother : (leaf, other) ∈ (derivedLeafPlacement graph ref planned resolved).placed ++
      (derivedLeafPlacement graph ref planned resolved).derived) : node = other := by
  rw [mem_mapped hsegments htarget] at hnode hother
  rcases hnode with hnode | ⟨hunplaced, rfl⟩ <;> rcases hother with hother | ⟨hunplaced', rfl⟩
  · have heq := (lookup_placedLeafs.mpr hnode).symm.trans (lookup_placedLeafs.mpr hother)
    exact Option.some.inj heq
  · exact absurd hnode.2 (hunplaced'.2 node hnode.1)
  · exact absurd hother.2 (hunplaced.2 other hother.1)
  · rfl

theorem target_iff {leaf : String} {node : SprintExecutionNode} :
    (derivedLeafPlacement graph ref planned resolved).target leaf = some node ↔
      (leaf, node) ∈ (derivedLeafPlacement graph ref planned resolved).placed ++
        (derivedLeafPlacement graph ref planned resolved).derived := by
  rw [mem_mapped hsegments htarget]
  unfold LeafPlacement.target
  rw [derivedLeafPlacement_placed hsegments, derivedLeafPlacement_derived hsegments,
    lookup_filterMap_const, htarget, ← lookup_placedLeafs]
  by_cases hunplaced : Unplaced graph ref planned leaf
  · have hnone : (placedLeafs graph ref).lookup leaf = none := by
      rw [← Option.not_isSome_iff_eq_none, Keyed.lookup_isSome_iff, mem_keys_placedLeafs]
      rintro ⟨n, hn, hleaf⟩
      exact hunplaced.2 n hn hleaf
    rw [if_pos (mem_unplaced.mpr hunplaced), hnone]
    simp [hunplaced, eq_comm]
  · rw [if_neg fun hmem => hunplaced (mem_unplaced.mp hmem)]
    simp [hunplaced]

end picked

theorem derivedLeafPlacement_places :
    PlacesLeafs graph ref planned resolved (derivedLeafPlacement graph ref planned resolved) := by
  obtain ⟨target, htarget, hpicked⟩ :=
    @latestUnblockedSegment_picks graph resolved _ hsegments
  have hmapped := @mem_mapped graph ref planned resolved hsegments target htarget
  have htargetIff := @target_iff graph ref planned resolved hsegments target htarget
  refine ⟨?_, fun leaf node => htargetIff.symm, ?_, ?_, ?_, ?_⟩
  · intro leaf hleaf
    by_cases hnamed : ∃ node ∈ segmentsFor graph ref, leaf ∈ node.leafIds
    · obtain ⟨node, hnode, hin⟩ := hnamed
      have hmem := hmapped.mpr (.inl ⟨hnode, hin⟩)
      exact ⟨node, hmem, fun other hother => mapped_once hsegments htarget hother hmem⟩
    · push Not at hnamed
      have hmem := hmapped.mpr (.inr ⟨⟨hleaf, hnamed⟩, rfl⟩)
      exact ⟨target, hmem, fun other hother => mapped_once hsegments htarget hother hmem⟩
  · intro leaf node h
    rcases hmapped.mp (htargetIff.mp h) with ⟨hnode, -⟩ | ⟨-, rfl⟩
    · exact hnode
    · exact hpicked.member
  · intro node hnode leaf hleaf
    refine ⟨htargetIff.mpr (hmapped.mpr (.inl ⟨hnode, hleaf⟩)), fun hderived => ?_⟩
    obtain ⟨⟨l, n⟩, hmem, rfl⟩ := List.mem_map.mp hderived
    exact ((mem_derived hsegments htarget).mp hmem).1.2 node hnode hleaf
  · intro leaf hunplaced
    refine ⟨target, htargetIff.mpr (hmapped.mpr (.inr ⟨hunplaced, rfl⟩)), ?_⟩
    have hflag : (derivedLeafPlacement graph ref planned resolved).derivedAllBlocked =
        (latestUnblockedSegment graph (segmentsFor graph ref) resolved).2 := by
      rw [Bool.eq_iff_iff, derivedLeafPlacement_allBlocked hsegments]
      exact and_iff_right ⟨leaf, hunplaced⟩
    rw [hflag]
    exact hpicked
  · intro hflag
    exact ((derivedLeafPlacement_allBlocked hsegments).mp hflag).1

end segmented

end placement

/-! ## What a candidate waits for -/

section reported
variable {graph : SprintExecutionGraph} {masters : List MasterDocument}

/-- The distinct predecessors of some nodes whose masters are not terminal. -/
structure ReportsPredecessors (graph : SprintExecutionGraph) (masters : List MasterDocument)
    (nodes reported : List SprintExecutionNode) : Prop where
  once : reported.Nodup
  exactly : ∀ p, p ∈ reported ↔ (∃ node ∈ nodes, InFront graph p node) ∧
    ∀ master ∈ masters, master.ref = p.ref → masterIsTerminal master = false

theorem mem_incompletePredecessors {resolved : List TaskDocumentRef}
    {node p : SprintExecutionNode} :
    p ∈ incompletePredecessors graph resolved node ↔ InFront graph p node ∧ p.ref ∉ resolved := by
  unfold incompletePredecessors
  rw [List.mem_flatMap, inFront_iff]
  constructor
  · rintro ⟨predecessor, -, hmem⟩
    split at hmem
    · cases hmem
    · rename_i hunresolved
      obtain ⟨edge, hedge, rfl⟩ := List.mem_map.mp hmem
      obtain ⟨hedge, hends⟩ := List.mem_filter.mp hedge
      exact ⟨⟨edge, hedge, of_decide_eq_true hends⟩, hunresolved⟩
  · rintro ⟨⟨edge, hedge, hends⟩, hunresolved⟩
    refine ⟨p, predecessor_mem (mem_predecessors.mpr ⟨edge, hedge, hends⟩), ?_⟩
    rw [if_neg hunresolved]
    exact List.mem_map.mpr ⟨edge, List.mem_filter.mpr ⟨hedge, decide_eq_true hends⟩, rfl⟩

/-- Two edges never join the same nodes, so a predecessor is reported once. -/
theorem nodup_incompletePredecessors (resolved : List TaskDocumentRef)
    (node : SprintExecutionNode) : (incompletePredecessors graph resolved node).Nodup := by
  have hvalid := validGraph graph
  have hof : ∀ {p q : SprintExecutionNode}, q ∈ (if p.ref ∈ resolved then [] else
      (graph.edges.filter fun edge => graph.resolve edge.predecessor = some p ∧
        graph.resolve edge.successor = some node).map fun _ => p) → q = p := by
    intro p q hq
    split at hq
    · cases hq
    · obtain ⟨_, -, rfl⟩ := List.mem_map.mp hq
      rfl
  unfold incompletePredecessors
  rw [List.nodup_flatMap]
  constructor
  · intro p _
    split
    · exact .nil
    have honce := hvalid.edgesOnce.filter fun edge =>
      decide (graph.resolve edge.predecessor = some p ∧ graph.resolve edge.successor = some node)
    have hall : ∀ edge ∈ graph.edges.filter (fun edge => graph.resolve edge.predecessor = some p ∧
        graph.resolve edge.successor = some node), ResolvesTo graph.nodes edge p node := by
      intro edge hedge
      obtain ⟨hp, hs⟩ := of_decide_eq_true (List.mem_filter.mp hedge).2
      exact ⟨resolve_eq_some.mp hp, resolve_eq_some.mp hs⟩
    match hfilter : graph.edges.filter (fun edge => graph.resolve edge.predecessor = some p ∧
        graph.resolve edge.successor = some node) with
    | [] =>
      rw [hfilter]
      exact .nil
    | [_] =>
      rw [hfilter]
      exact List.nodup_singleton p
    | a :: b :: rest =>
      rw [hfilter] at honce hall
      exact absurd (hall b (by simp))
        (List.rel_of_pairwise_cons honce (by simp) p node (hall a (by simp)))
  · refine hvalid.nodesOnce.imp fun hne q hq hq' => hne ?_
    exact (hof hq).symm.trans (hof hq')

theorem not_mem_terminal_iff {ref : TaskDocumentRef} :
    ref ∉ (masters.filter masterIsTerminal).map MasterDocument.ref ↔
      ∀ master ∈ masters, master.ref = ref → masterIsTerminal master = false := by
  rw [List.mem_map]
  constructor
  · intro h master hmaster href
    by_contra hterminal
    exact h ⟨master, List.mem_filter.mpr ⟨hmaster, by simpa using hterminal⟩, href⟩
  · rintro h ⟨master, hmaster, href⟩
    obtain ⟨hmaster, hterminal⟩ := List.mem_filter.mp hmaster
    rw [h master hmaster href] at hterminal
    cases hterminal

/-- The nodes whose predecessors count: the candidate's, or its master's if it has none. -/
def waitingNodes (graph : SprintExecutionGraph) (masters : List MasterDocument)
    (owningMaster leaf : TaskDocumentRef) : List SprintExecutionNode :=
  match (graphContext graph masters).candidateNode owningMaster leaf with
  | some node => [node]
  | none => graph.nodesFor owningMaster

theorem candidatePredecessors_reports (owningMaster leaf : TaskDocumentRef) :
    ReportsPredecessors graph masters (waitingNodes graph masters owningMaster leaf)
      ((graphContext graph masters).candidatePredecessors owningMaster leaf) := by
  unfold QueueGraphContext.candidatePredecessors waitingNodes
  cases (graphContext graph masters).candidateNode owningMaster leaf with
  | some node =>
    refine ⟨nodup_incompletePredecessors _ node, fun p => ?_⟩
    rw [← not_mem_terminal_iff]
    simp only [List.mem_singleton, exists_eq_left]
    exact mem_incompletePredecessors
  | none =>
    refine ⟨Deduped.nodup_eraseDups _, fun p => ?_⟩
    rw [← not_mem_terminal_iff]
    show p ∈ List.eraseDups _ ↔ _
    rw [List.mem_eraseDups, List.mem_flatMap]
    constructor
    · rintro ⟨node, hnode, hp⟩
      obtain ⟨hfront, hopen⟩ := mem_incompletePredecessors.mp hp
      exact ⟨⟨node, hnode, hfront⟩, hopen⟩
    · rintro ⟨⟨node, hnode, hfront⟩, hopen⟩
      exact ⟨node, hnode, mem_incompletePredecessors.mpr ⟨hfront, hopen⟩⟩

theorem leafRows_row {leaf : TaskDocumentRef} {master : MasterDocument} {number : String}
    (h : (leaf, master, number) ∈ leafRows graph masters) :
    ∃ row ∈ master.subTasks, row.number = number := by
  obtain ⟨m, -, h⟩ := List.mem_flatMap.mp h
  split at h
  · cases h
  · obtain ⟨row, hrow, h⟩ := List.mem_filterMap.mp h
    split at h
    · cases h
    · cases h
      exact ⟨row, hrow, rfl⟩

/-- The node of a candidate: its master's only node, or else the target of the
last row that has the candidate's document. -/
theorem candidateNode_iff {owningMaster leaf : TaskDocumentRef} {node : SprintExecutionNode} :
    (graphContext graph masters).candidateNode owningMaster leaf = some node ↔
      graph.nodesFor owningMaster = [node] ∨
        ((∀ only, graph.nodesFor owningMaster ≠ [only]) ∧ ∃ master number,
          (Keyed.dict (leafRows graph masters)).lookup leaf = some (master, number) ∧
            (derivedLeafPlacement graph master.ref (master.subTasks.map SubTaskRef.number)
              ((masters.filter masterIsTerminal).map MasterDocument.ref)).target number =
                some node) := by
  show QueueGraphContext.candidateNode (contextOf graph masters _) owningMaster leaf = _ ↔ _
  by_cases hlump : ∃ only, graph.nodesFor owningMaster = [only]
  · obtain ⟨only, honly⟩ := hlump
    have hnode : (contextOf graph masters ((masters.filter masterIsTerminal).map
        MasterDocument.ref)).candidateNode owningMaster leaf = some only := by
      unfold QueueGraphContext.candidateNode contextOf
      dsimp only
      rw [honly]
    rw [hnode, honly]
    simp
  · have hnot : ∀ only, graph.nodesFor owningMaster ≠ [only] := fun only h => hlump ⟨only, h⟩
    have hlookup := lookup_leafNodeIndex graph masters
      ((masters.filter masterIsTerminal).map MasterDocument.ref) leaf
    rw [candidateNode_segments hnot, or_iff_right (hnot node), and_iff_right hnot]
    cases hrow : (Keyed.dict (leafRows graph masters)).lookup leaf with
    | none =>
      rw [hrow, Option.map_none, Option.map_eq_none_iff] at hlookup
      rw [hlookup]
      simp
    | some found =>
      obtain ⟨master, number⟩ := found
      have hmem := Keyed.mem_of_mem_dict (Keyed.mem_of_lookup hrow)
      obtain ⟨row, hin, rfl⟩ := leafRows_row hmem
      have htarget := @target_eq _ ((masters.filter masterIsTerminal).map MasterDocument.ref) _
        (segmentsFor_of_leafRows hmem) _ hin
      rw [hrow, Option.map_some, ← htarget] at hlookup
      constructor
      · intro hnode
        rw [hnode, Option.map_some] at hlookup
        exact ⟨master, row.number, rfl, (Option.some.inj hlookup).symm⟩
      · rintro ⟨master', number', hfound, hnode⟩
        cases hfound
        rw [hnode] at hlookup
        obtain ⟨n, hn, heq⟩ := Option.map_eq_some_iff.mp hlookup
        rw [hn, heq]

end reported

/-- Every planned leaf of a segmented master is placed in one segment of it, as
authored or else in the latest that is not blocked; the candidates stand where
their rows are placed, and wait for exactly the predecessors that are not terminal. -/
theorem leaf_placement_exact (graph : SprintExecutionGraph) (masters : List MasterDocument) :
    (∀ ref planned resolved, segmentsFor graph ref ≠ [] →
      PlacesLeafs graph ref planned resolved
        (derivedLeafPlacement graph ref planned resolved)) ∧
    (∀ node ∈ graph.nodes, graph.nodes[declaration graph node]? = some node ∧
      ∃ wave, graph.analysis.waves[waveOf graph node]? = some wave ∧ node ∈ wave) ∧
    (∀ owningMaster leaf node,
      (graphContext graph masters).candidateNode owningMaster leaf = some node ↔
        graph.nodesFor owningMaster = [node] ∨
          ((∀ only, graph.nodesFor owningMaster ≠ [only]) ∧ ∃ master number,
            (Keyed.dict (leafRows graph masters)).lookup leaf = some (master, number) ∧
              (derivedLeafPlacement graph master.ref (master.subTasks.map SubTaskRef.number)
                ((masters.filter masterIsTerminal).map MasterDocument.ref)).target number =
                  some node)) ∧
    ∀ owningMaster leaf,
      ReportsPredecessors graph masters (waitingNodes graph masters owningMaster leaf)
        ((graphContext graph masters).candidatePredecessors owningMaster leaf) :=
  ⟨fun _ _ _ hsegments => derivedLeafPlacement_places hsegments,
    fun _ hnode => ⟨declaration_spec hnode, waveOf_spec hnode⟩,
    fun _ _ _ => candidateNode_iff, candidatePredecessors_reports⟩

/-- A leaf that joined the series later is placed as well. -/
theorem leaf_placement_series :
    PlacesLeafs seriesGraph seriesMaster.ref ["L1", "L2", "L3"] []
      (derivedLeafPlacement seriesGraph seriesMaster.ref ["L1", "L2", "L3"] []) :=
  (leaf_placement_exact seriesGraph [seriesMaster]).1 _ _ _ (by decide +kernel)

end AgentsRemember.Queue
