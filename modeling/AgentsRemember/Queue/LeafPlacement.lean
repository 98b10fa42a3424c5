import AgentsRemember.Queue.Placement
import AgentsRemember.Queue.GraphExact

/-!
# Queue — LeafPlacement

Where the derivation puts the planned leafs of a segmented master: an authored
leaf in its own segment, any other in the latest segment that is not blocked, or
in the latest of all.
-/

namespace AgentsRemember.Queue

/-! ## The latest of a sorted list -/

section latest
variable {α : Type} {le : α → α → Bool} {p : α → Bool} {l : List α} {x : α}

theorem le_of_find?_reverse (hsorted : l.Pairwise fun a b => le a b)
    (hrefl : ∀ a, le a a) (h : l.reverse.find? p = some x) :
    ∀ y ∈ l, p y → le y x := by
  obtain ⟨_, behind, front, hsplit, hbehind⟩ := List.find?_eq_some_iff_append.mp h
  have hl : l = front.reverse ++ x :: behind.reverse := by
    rw [← List.reverse_reverse l, hsplit]
    simp
  intro y hy hp
  rw [hl, List.mem_append, List.mem_cons, List.mem_reverse, List.mem_reverse] at hy
  rw [hl, List.pairwise_append] at hsorted
  rcases hy with hfront | rfl | hy
  · exact hsorted.2.2 y (List.mem_reverse.mpr hfront) x List.mem_cons_self
  · exact hrefl y
  · have hnot := hbehind y hy
    rw [hp] at hnot
    cases hnot

theorem le_of_getLast? (hsorted : l.Pairwise fun a b => le a b)
    (hrefl : ∀ a, le a a) (h : l.getLast? = some x) : ∀ y ∈ l, le y x := by
  have hfind : l.reverse.find? (fun _ => true) = some x := by
    rw [← List.head?_reverse] at h
    cases hreverse : l.reverse with
    | nil =>
      rw [hreverse] at h
      cases h
    | cons a rest =>
      rw [hreverse] at h
      cases h
      rfl
  intro y hy
  exact le_of_find?_reverse hsorted hrefl hfind y hy rfl

end latest

/-! ## Waves and declarations -/

section order
variable (graph : SprintExecutionGraph)

/-- The nodes an edge of the graph puts in front of a node. -/
def InFront (p node : SprintExecutionNode) : Prop :=
  ResolvedEdge graph.nodes graph.edges p node

/-- A node in front of it has an unresolved master. -/
def Blocked (resolved : List TaskDocumentRef) (node : SprintExecutionNode) : Prop :=
  ∃ p, InFront graph p node ∧ p.ref ∉ resolved

/-- The latest of some nodes, by wave and then by declaration. -/
structure LatestNode (among : SprintExecutionNode → Prop) (node : SprintExecutionNode) : Prop where
  member : among node
  latest : ∀ other, among other → waveOf graph other < waveOf graph node ∨
    (waveOf graph other = waveOf graph node ∧ declaration graph other ≤ declaration graph node)

/-- The order of the segments: by wave, then by declaration. -/
def scheduledBefore (a b : SprintExecutionNode) : Bool :=
  waveOf graph a < waveOf graph b ||
    (waveOf graph a = waveOf graph b && declaration graph a ≤ declaration graph b)

variable {graph}

theorem resolve_eq_some {endpoint : SprintExecutionEndpoint} {node : SprintExecutionNode} :
    graph.resolve endpoint = some node ↔ resolveGraphEndpoint graph.nodes endpoint = .ok node := by
  rw [resolveGraphEndpoint_eq]
  unfold SprintExecutionGraph.resolve
  cases resolveEndpoint graph.nodes endpoint with
  | error refusal => simp [Except.map, Except.toOption]
  | ok found => simp [Except.map, Except.toOption]

theorem inFront_iff {p node : SprintExecutionNode} : InFront graph p node ↔
    ∃ edge ∈ graph.edges,
      graph.resolve edge.predecessor = some p ∧ graph.resolve edge.successor = some node := by
  simp only [resolve_eq_some]
  rfl

theorem unblocked_iff {resolved : List TaskDocumentRef} {node : SprintExecutionNode} :
    unblocked graph resolved node = true ↔ ¬Blocked graph resolved node := by
  unfold unblocked Blocked
  rw [List.all_eq_true]
  constructor
  · rintro h ⟨p, hfront, hunresolved⟩
    exact hunresolved (of_decide_eq_true (h p (mem_predecessors.mpr (inFront_iff.mp hfront))))
  · intro h p hp
    by_contra hunresolved
    exact h ⟨p, inFront_iff.mpr (mem_predecessors.mp hp), by simpa using hunresolved⟩

theorem scheduledBefore_iff {a b : SprintExecutionNode} : scheduledBefore graph a b = true ↔
    waveOf graph a < waveOf graph b ∨
      (waveOf graph a = waveOf graph b ∧ declaration graph a ≤ declaration graph b) := by
  unfold scheduledBefore
  simp

theorem scheduledBefore_refl (a : SprintExecutionNode) : scheduledBefore graph a a = true := by
  rw [scheduledBefore_iff]
  omega

theorem pairwise_scheduledBefore (segments : List SprintExecutionNode) :
    (segments.mergeSort (scheduledBefore graph)).Pairwise fun a b =>
      scheduledBefore graph a b = true := by
  apply List.pairwise_mergeSort
  · intro a b c hab hbc
    rw [scheduledBefore_iff] at hab hbc ⊢
    omega
  · intro a b
    rw [Bool.or_eq_true, scheduledBefore_iff, scheduledBefore_iff]
    omega

theorem validGraph (graph : SprintExecutionGraph) : ValidGraph graph.nodes graph.edges :=
  (validateGraph_exact graph.nodes graph.edges).1.mp
    ⟨graph.analysis, validateExecutionGraph_eq_ok.mp graph.valid⟩

/-- The wave of a node is one of the analysis, and the node is in it. -/
theorem waveOf_spec {node : SprintExecutionNode} (h : node ∈ graph.nodes) :
    ∃ wave, graph.analysis.waves[waveOf graph node]? = some wave ∧ node ∈ wave := by
  have hperm := ((validateGraph_exact graph.nodes graph.edges).2 graph.analysis
    (validateExecutionGraph_eq_ok.mp graph.valid)).1
  obtain ⟨wave, hwave, hin⟩ := List.mem_flatten.mp (hperm.mem_iff.mpr h)
  have hlt : waveOf graph node < graph.analysis.waves.length :=
    List.findIdx_lt_length_of_exists ⟨wave, hwave, decide_eq_true hin⟩
  refine ⟨graph.analysis.waves[waveOf graph node], List.getElem?_eq_getElem hlt, ?_⟩
  exact of_decide_eq_true (List.findIdx_getElem (w := hlt))

theorem declaration_spec {node : SprintExecutionNode} (h : node ∈ graph.nodes) :
    graph.nodes[declaration graph node]? = some node :=
  List.getElem?_idxOf h

/-! ## The latest segment -/

/-- The segment for what is not placed: the latest that is not blocked, or, when
all are blocked, the latest, which is flagged. -/
structure PickedSegment (graph : SprintExecutionGraph) (segments : List SprintExecutionNode)
    (resolved : List TaskDocumentRef) (target : SprintExecutionNode) (allBlocked : Bool) :
    Prop where
  someUnblocked : (∃ segment ∈ segments, ¬Blocked graph resolved segment) →
    LatestNode graph (fun node => node ∈ segments ∧ ¬Blocked graph resolved node) target ∧
      allBlocked = false
  allBlocked : (∀ segment ∈ segments, Blocked graph resolved segment) →
    LatestNode graph (fun node => node ∈ segments) target ∧ allBlocked = true

theorem latestUnblockedSegment_eq (segments : List SprintExecutionNode)
    (resolved : List TaskDocumentRef) : latestUnblockedSegment graph segments resolved =
      match (segments.mergeSort (scheduledBefore graph)).reverse.find?
        (unblocked graph resolved) with
      | some candidate => (some candidate, false)
      | none => ((segments.mergeSort (scheduledBefore graph)).getLast?, true) := rfl

theorem latestUnblockedSegment_picks (resolved : List TaskDocumentRef)
    {segments : List SprintExecutionNode} (hsegments : segments ≠ []) :
    ∃ target, (latestUnblockedSegment graph segments resolved).1 = some target ∧
      PickedSegment graph segments resolved target
        (latestUnblockedSegment graph segments resolved).2 := by
  have hsorted := @pairwise_scheduledBefore graph segments
  have hmem : ∀ {node}, node ∈ segments.mergeSort (scheduledBefore graph) ↔ node ∈ segments :=
    List.mem_mergeSort
  rw [latestUnblockedSegment_eq]
  generalize segments.mergeSort (scheduledBefore graph) = ordered at hsorted hmem ⊢
  cases hfind : ordered.reverse.find? (unblocked graph resolved) with
  | some candidate =>
    have hfree := unblocked_iff.mp (List.find?_some hfind)
    have hcandidate := hmem.mp (List.mem_reverse.mp (List.mem_of_find?_eq_some hfind))
    refine ⟨candidate, rfl, fun _ => ⟨⟨⟨hcandidate, hfree⟩, ?_⟩, rfl⟩, fun hall => ?_⟩
    · rintro other ⟨hother, hotherFree⟩
      exact scheduledBefore_iff.mp (le_of_find?_reverse hsorted scheduledBefore_refl hfind other
        (hmem.mpr hother) (unblocked_iff.mpr hotherFree))
    · exact absurd (hall candidate hcandidate) hfree
  | none =>
    have hall : ∀ segment ∈ segments, Blocked graph resolved segment := by
      intro segment hsegment
      have hnot := List.find?_eq_none.mp hfind segment (List.mem_reverse.mpr (hmem.mpr hsegment))
      rw [unblocked_iff] at hnot
      exact not_not.mp hnot
    have hne : ordered ≠ [] := by
      obtain ⟨segment, hsegment⟩ := List.exists_mem_of_ne_nil segments hsegments
      exact List.ne_nil_of_mem (hmem.mpr hsegment)
    have hlast := List.getLast?_eq_some_getLast hne
    refine ⟨ordered.getLast hne, hlast, ?_, fun _ => ⟨⟨?_, ?_⟩, rfl⟩⟩
    · rintro ⟨segment, hsegment, hfree⟩
      exact absurd (hall segment hsegment) hfree
    · exact hmem.mp (List.getLast_mem hne)
    · intro other hother
      exact scheduledBefore_iff.mp
        (le_of_getLast? hsorted scheduledBefore_refl hlast other (hmem.mpr hother))

theorem PickedSegment.member {segments : List SprintExecutionNode}
    {resolved : List TaskDocumentRef} {target : SprintExecutionNode} {allBlocked : Bool}
    (h : PickedSegment graph segments resolved target allBlocked) : target ∈ segments := by
  by_cases hall : ∀ segment ∈ segments, Blocked graph resolved segment
  · exact (h.allBlocked hall).1.member
  · push Not at hall
    exact (h.someUnblocked hall).1.member.1

/-- The picked segment is blocked only if all are. -/
theorem PickedSegment.unblocked_iff {segments : List SprintExecutionNode}
    {resolved : List TaskDocumentRef} {target : SprintExecutionNode} {allBlocked : Bool}
    (h : PickedSegment graph segments resolved target allBlocked) :
    unblocked graph resolved target = true ↔
      ∃ segment ∈ segments, unblocked graph resolved segment = true := by
  simp only [Queue.unblocked_iff]
  constructor
  · intro hfree
    exact ⟨target, h.member, hfree⟩
  · intro hsome
    exact (h.someUnblocked hsome).1.member.2

/-! ## The placement of a segmented master -/

section placement
variable {ref : TaskDocumentRef} {planned : List String} {resolved : List TaskDocumentRef}

theorem leafs_nodup (graph : SprintExecutionGraph) (ref : TaskDocumentRef) :
    ((segmentsFor graph ref).flatMap SprintExecutionNode.leafIds).Nodup := by
  have hsub : (segmentsFor graph ref).Sublist graph.nodes :=
    List.filter_sublist.trans List.filter_sublist
  exact (hsub.flatMap SprintExecutionNode.leafIds).nodup (validGraph graph).leafsOnce

theorem placedLeafs_eq (graph : SprintExecutionGraph) (ref : TaskDocumentRef) :
    placedLeafs graph ref =
      (segmentsFor graph ref).flatMap fun node => node.leafIds.map fun leaf => (leaf, node) := by
  refine Keyed.dict_of_nodup ?_
  rw [List.map_flatMap]
  simp only [List.map_map]
  have hleafs := leafs_nodup graph ref
  simpa [Function.comp_def] using hleafs

/-- What is placed is what the segments name. -/
theorem mem_placedLeafs {leaf : String} {node : SprintExecutionNode} :
    (leaf, node) ∈ placedLeafs graph ref ↔ node ∈ segmentsFor graph ref ∧ leaf ∈ node.leafIds := by
  rw [placedLeafs_eq, List.mem_flatMap]
  constructor
  · rintro ⟨n, hn, hmem⟩
    obtain ⟨l, hl, he⟩ := List.mem_map.mp hmem
    cases he
    exact ⟨hn, hl⟩
  · rintro ⟨hnode, hleaf⟩
    exact ⟨node, hnode, List.mem_map_of_mem hleaf⟩

theorem lookup_placedLeafs {leaf : String} {node : SprintExecutionNode} :
    (placedLeafs graph ref).lookup leaf = some node ↔
      node ∈ segmentsFor graph ref ∧ leaf ∈ node.leafIds := by
  rw [← mem_placedLeafs]
  exact ⟨Keyed.mem_of_lookup, Keyed.lookup_of_mem (Keyed.nodup_keys_dict _)⟩

theorem mem_keys_placedLeafs {leaf : String} :
    leaf ∈ (placedLeafs graph ref).map Prod.fst ↔
      ∃ node ∈ segmentsFor graph ref, leaf ∈ node.leafIds := by
  rw [← Keyed.lookup_isSome_iff, Option.isSome_iff_exists]
  exact exists_congr fun node => lookup_placedLeafs

theorem lookup_filterMap_const {ν : Type} (target : Option ν) (leafs : List String)
    (leaf : String) :
    (leafs.filterMap fun l => target.map fun node => (l, node)).lookup leaf =
      if leaf ∈ leafs then target else none := by
  cases target with
  | none => simp
  | some node =>
    induction leafs with
    | nil => rfl
    | cons l leafs ih =>
      simp only [Option.map_some, List.filterMap_cons, Keyed.lookup_cons] at ih ⊢
      rw [ih]
      by_cases hl : l = leaf
      · simp [hl]
      · simp [hl, Ne.symm hl]

/-- The leafs the derivation adds. -/
def Unplaced (graph : SprintExecutionGraph) (ref : TaskDocumentRef) (planned : List String)
    (leaf : String) : Prop :=
  leaf ∈ planned ∧ ∀ node ∈ segmentsFor graph ref, leaf ∉ node.leafIds

theorem mem_unplaced {leaf : String} :
    leaf ∈ planned.eraseDups.filter (fun leaf => leaf ∉ (placedLeafs graph ref).map Prod.fst) ↔
      Unplaced graph ref planned leaf := by
  unfold Unplaced
  rw [List.mem_filter, List.mem_eraseDups, decide_eq_true_iff, mem_keys_placedLeafs]
  push Not
  rfl

section segmented
variable (hsegments : segmentsFor graph ref ≠ [])
include hsegments

theorem derivedLeafPlacement_placed :
    (derivedLeafPlacement graph ref planned resolved).placed = placedLeafs graph ref := by
  have hfalse : (segmentsFor graph ref).isEmpty = false := by simpa using hsegments
  unfold derivedLeafPlacement
  dsimp only
  rw [hfalse]
  rfl

theorem derivedLeafPlacement_derived :
    (derivedLeafPlacement graph ref planned resolved).derived =
      (planned.eraseDups.filter fun leaf =>
        leaf ∉ (placedLeafs graph ref).map Prod.fst).filterMap fun leaf =>
          (latestUnblockedSegment graph (segmentsFor graph ref) resolved).1.map
            fun node => (leaf, node) := by
  have hfalse : (segmentsFor graph ref).isEmpty = false := by simpa using hsegments
  unfold derivedLeafPlacement
  dsimp only
  rw [hfalse]
  simp only [Bool.false_eq_true, if_false]
  cases planned.eraseDups.filter fun leaf => leaf ∉ (placedLeafs graph ref).map Prod.fst with
  | nil => rfl
  | cons leaf unplaced => rfl

theorem derivedLeafPlacement_allBlocked :
    (derivedLeafPlacement graph ref planned resolved).derivedAllBlocked = true ↔
      (∃ leaf, Unplaced graph ref planned leaf) ∧
        (latestUnblockedSegment graph (segmentsFor graph ref) resolved).2 = true := by
  have hfalse : (segmentsFor graph ref).isEmpty = false := by simpa using hsegments
  simp only [← mem_unplaced]
  unfold derivedLeafPlacement
  dsimp only
  rw [hfalse]
  simp only [Bool.false_eq_true, if_false]
  cases planned.eraseDups.filter fun leaf => leaf ∉ (placedLeafs graph ref).map Prod.fst with
  | nil => simp
  | cons leaf unplaced =>
    simp only [List.isEmpty_cons, Bool.false_eq_true, if_false]
    exact ⟨fun hflag => ⟨⟨leaf, List.mem_cons_self⟩, hflag⟩, fun h => h.2⟩

/-- The segment of a leaf: where it is placed, or else the one that is picked. -/
theorem target_of_mem {leaf : String} (hleaf : leaf ∈ planned) :
    (derivedLeafPlacement graph ref planned resolved).target leaf =
      match (placedLeafs graph ref).lookup leaf with
      | some node => some node
      | none => (latestUnblockedSegment graph (segmentsFor graph ref) resolved).1 := by
  unfold LeafPlacement.target
  rw [derivedLeafPlacement_placed hsegments, derivedLeafPlacement_derived hsegments,
    lookup_filterMap_const]
  have hunplaced : leaf ∈ planned.eraseDups.filter
      (fun leaf => leaf ∉ (placedLeafs graph ref).map Prod.fst) ↔
      (placedLeafs graph ref).lookup leaf = none := by
    rw [List.mem_filter, List.mem_eraseDups, decide_eq_true_iff, ← Keyed.lookup_isSome_iff,
      Option.not_isSome_iff_eq_none]
    exact and_iff_right hleaf
  cases hplaced : (placedLeafs graph ref).lookup leaf with
  | some node =>
    rw [hplaced] at hunplaced
    rw [if_neg fun hmem => Option.some_ne_none _ (hunplaced.mp hmem)]
    rfl
  | none =>
    rw [if_pos (hunplaced.mpr hplaced), Option.or_none]

end segmented

end placement

end order

end AgentsRemember.Queue
