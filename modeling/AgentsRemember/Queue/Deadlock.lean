import AgentsRemember.Foundation.Deduped
import AgentsRemember.Foundation.Waiting
import AgentsRemember.Queue.LeafPlacement
import Mathlib.Data.List.Nodup

/-!
# Queue — Deadlock

A sprint of masters under an execution graph. A leaf closes once its node has no
incomplete predecessor, and a master is terminal once its leafs are closed.

The graph is acyclic between its nodes, but a predecessor counts until its whole
master is terminal, and masters with several segments may wait for each other in
a circle; only then can the sprint come to a standstill.
-/

namespace AgentsRemember.Queue

/-! ## A sprint -/

/-- Why a topology is refused. -/
inductive TopologyRefusal where
  | membership (missing extra : List TaskDocumentRef)
  | natureMissing (ref : TaskDocumentRef)
  | segmentOnAtomic (node : SprintExecutionNode)
deriving DecidableEq

/-- An atomic master admits lump nodes only. -/
def refuseSegmentNodesOnAtomicMasters (nodes : List SprintExecutionNode)
    (natureByRef : List (TaskDocumentRef × Option String)) : Except TopologyRefusal Unit :=
  match nodes.find? fun node =>
      node.kind = .segment ∧ natureByRef.lookup node.ref = some (some "atomic") with
  | some node => .error (.segmentOnAtomic node)
  | none => .ok ()

/-- The graph declares the commanded masters, and no other. -/
def validateExecutionTopology (graph : SprintExecutionGraph) (commanded : List MasterDocument) :
    Except TopologyRefusal Unit := do
  let graphRefs := graph.nodes.map SprintExecutionNode.ref
  let missing := (commanded.map MasterDocument.ref).filter fun ref => ref ∉ graphRefs
  let extra := graphRefs.filter fun ref => ref ∉ commanded.map MasterDocument.ref
  let natureByRef := commanded.map fun master => (master.ref, master.executionNature)
  if missing ≠ [] ∨ extra ≠ [] then .error (.membership missing extra)
  match commanded.find? fun master => master.executionNature.isNone with
  | some master => .error (.natureMissing master.ref)
  | none => refuseSegmentNodesOnAtomicMasters graph.nodes natureByRef

/-- The masters are kept by reference. -/
structure Sprint where
  graph : SprintExecutionGraph
  masters : List MasterDocument
  distinct : (masters.map MasterDocument.ref).Nodup
  valid : validateExecutionTopology graph masters = .ok ()

/-- The documents of a master's rows that are not resolved yet. -/
def openLeafs (master : MasterDocument) : List TaskDocumentRef :=
  (master.subTasks.filter fun row =>
    row.file ≠ "" ∧ row.status ∉ resolvedMasterRowStatuses).map fun row =>
      leafRef master.ref row.file

/-! ## What a leaf stands on -/

section leafs
variable (graph : SprintExecutionGraph) (masters : List MasterDocument)

/-- The rows that segments are looked up for, by document. -/
def leafRows : List (TaskDocumentRef × MasterDocument × String) :=
  masters.flatMap fun master =>
    if segmentsFor graph master.ref = [] then []
    else master.subTasks.filterMap fun row =>
      if row.file = "" then none else some (leafRef master.ref row.file, master, row.number)

/-- A property of the node of a leaf: of its lump, of the segment it is placed in,
or of some segment it may be derived to; of a leaf without a row, of all nodes. -/
def LeafOn (P : SprintExecutionNode → Prop) (master : MasterDocument)
    (leaf : TaskDocumentRef) : Prop :=
  match graph.nodesFor master.ref with
  | [node] => P node
  | nodes => match (Keyed.dict (leafRows graph masters)).lookup leaf with
    | none => ∀ node ∈ nodes, P node
    | some (owner, number) => match (placedLeafs graph owner.ref).lookup number with
      | some node => P node
      | none => ∃ segment ∈ segmentsFor graph owner.ref, P segment

variable {graph masters}

theorem LeafOn.mono {P Q : SprintExecutionNode → Prop} {master : MasterDocument}
    {leaf : TaskDocumentRef} (hPQ : ∀ node, P node → Q node)
    (h : LeafOn graph masters P master leaf) : LeafOn graph masters Q master leaf := by
  unfold LeafOn at h ⊢
  split
  · rename_i node hnodes
    rw [hnodes] at h
    exact hPQ node h
  · rename_i nodes hnot
    split at h
    · rename_i node hnodes
      exact absurd hnodes (hnot node)
    · cases hrow : (Keyed.dict (leafRows graph masters)).lookup leaf with
      | none =>
        rw [hrow] at h
        exact fun node hnode => hPQ node (h node hnode)
      | some row =>
        obtain ⟨owner, number⟩ := row
        rw [hrow] at h
        dsimp only at h ⊢
        cases hplaced : (placedLeafs graph owner.ref).lookup number with
        | some node =>
          rw [hplaced] at h
          exact hPQ node h
        | none =>
          rw [hplaced] at h
          obtain ⟨segment, hsegment, hP⟩ := h
          exact ⟨segment, hsegment, hPQ segment hP⟩

theorem incompletePredecessors_eq_nil {resolved : List TaskDocumentRef}
    {node : SprintExecutionNode} :
    incompletePredecessors graph resolved node = [] ↔ unblocked graph resolved node = true := by
  unfold incompletePredecessors unblocked
  rw [List.flatMap_eq_nil_iff, List.all_eq_true]
  constructor
  · intro h p hp
    obtain ⟨edge, hedge, hends⟩ := mem_predecessors.mp hp
    by_contra hunresolved
    have hnil := h p (predecessor_mem hp)
    rw [if_neg (by simpa using hunresolved), List.map_eq_nil_iff, List.filter_eq_nil_iff] at hnil
    exact hnil edge hedge (decide_eq_true hends)
  · intro h p _
    split
    · rfl
    · rename_i hunresolved
      rw [List.map_eq_nil_iff, List.filter_eq_nil_iff]
      intro edge hedge hends
      have hp := mem_predecessors.mpr ⟨edge, hedge, of_decide_eq_true hends⟩
      exact hunresolved (by simpa using h p hp)

/-- The latest segment that is not blocked is not blocked, if there is one. -/
theorem latestUnblockedSegment_spec (resolved : List TaskDocumentRef)
    {segments : List SprintExecutionNode} (hsegments : segments ≠ []) :
    ∃ target, (latestUnblockedSegment graph segments resolved).1 = some target ∧
      (unblocked graph resolved target = true ↔
        ∃ segment ∈ segments, unblocked graph resolved segment = true) := by
  obtain ⟨target, htarget, hpicked⟩ := latestUnblockedSegment_picks resolved hsegments
  exact ⟨target, htarget, hpicked.unblocked_iff⟩

/-- Where the row of a segmented master stands. -/
def rowTarget (graph : SprintExecutionGraph) (resolved : List TaskDocumentRef)
    (row : MasterDocument × String) : Option SprintExecutionNode :=
  match (placedLeafs graph row.1.ref).lookup row.2 with
  | some node => some node
  | none => (latestUnblockedSegment graph (segmentsFor graph row.1.ref) resolved).1

theorem target_eq {resolved : List TaskDocumentRef} {master : MasterDocument}
    (hsegments : segmentsFor graph master.ref ≠ []) {row : SubTaskRef}
    (hrow : row ∈ master.subTasks) :
    (derivedLeafPlacement graph master.ref (master.subTasks.map SubTaskRef.number)
      resolved).target row.number = rowTarget graph resolved (master, row.number) := by
  rw [target_of_mem hsegments (List.mem_map_of_mem hrow)]
  rfl

theorem rowTarget_isSome (resolved : List TaskDocumentRef) (row : MasterDocument × String)
    (hsegments : segmentsFor graph row.1.ref ≠ []) : ∃ node,
      rowTarget graph resolved row = some node ∧
      (unblocked graph resolved node = true ↔
        match (placedLeafs graph row.1.ref).lookup row.2 with
        | some node => unblocked graph resolved node = true
        | none => ∃ segment ∈ segmentsFor graph row.1.ref,
          unblocked graph resolved segment = true) := by
  unfold rowTarget
  cases (placedLeafs graph row.1.ref).lookup row.2 with
  | some node => exact ⟨node, rfl, Iff.rfl⟩
  | none => exact latestUnblockedSegment_spec resolved hsegments

/-- The index of the leafs: for each row of a segmented master its target. -/
theorem leafEntries_eq (graph : SprintExecutionGraph) (resolved : List TaskDocumentRef) (master : MasterDocument) :
    (leafEntries graph resolved master).map (fun e => (e.1, some e.2)) =
      (leafRows graph [master]).map fun e => (e.1, rowTarget graph resolved e.2) := by
  unfold leafEntries leafRows
  simp only [List.flatMap_cons, List.flatMap_nil, List.append_nil]
  by_cases hsegments : segmentsFor graph master.ref = []
  · have hempty : (segmentsFor graph master.ref).isEmpty = true := by simpa using hsegments
    have hnone : ∀ number, (derivedLeafPlacement graph master.ref
        (master.subTasks.map SubTaskRef.number) resolved).target number = none := by
      intro number
      unfold derivedLeafPlacement
      dsimp only
      rw [hempty]
      rfl
    simp [hsegments, hnone]
  · rw [if_neg hsegments, List.map_filterMap, List.map_filterMap]
    apply List.filterMap_congr
    intro row hrow
    split
    · rfl
    · obtain ⟨node, hnode, -⟩ :=
        rowTarget_isSome resolved (master, row.number) hsegments
      rw [target_eq hsegments hrow, hnode]
      simp [hnode]

variable (graph masters) in
theorem lookup_leafNodeIndex (resolved : List TaskDocumentRef) (leaf : TaskDocumentRef) :
    ((leafNodeIndex graph masters resolved).lookup leaf).map some =
      ((Keyed.dict (leafRows graph masters)).lookup leaf).map (rowTarget graph resolved) := by
  unfold leafNodeIndex
  rw [← Keyed.lookup_dict_map, ← Keyed.lookup_dict_map]
  congr 2
  induction masters with
  | nil => rfl
  | cons master masters ih =>
    have hone := leafEntries_eq graph resolved master
    simp only [leafRows, List.flatMap_cons, List.flatMap_nil, List.append_nil] at hone ih ⊢
    rw [List.map_append, List.map_append, hone, ih]

theorem segmentsFor_of_leafRows {leaf : TaskDocumentRef} {row : MasterDocument × String}
    (h : (leaf, row) ∈ leafRows graph masters) : segmentsFor graph row.1.ref ≠ [] := by
  obtain ⟨master, -, h⟩ := List.mem_flatMap.mp h
  split at h
  · cases h
  · rename_i hsegments
    obtain ⟨r, -, h⟩ := List.mem_filterMap.mp h
    split at h
    · cases h
    · cases h
      exact hsegments

theorem leafOn_lump {P : SprintExecutionNode → Prop} {master : MasterDocument}
    {leaf : TaskDocumentRef} {node : SprintExecutionNode}
    (h : graph.nodesFor master.ref = [node]) : LeafOn graph masters P master leaf ↔ P node := by
  unfold LeafOn
  rw [h]

theorem leafOn_segments {P : SprintExecutionNode → Prop} {master : MasterDocument}
    {leaf : TaskDocumentRef} (h : ∀ node, graph.nodesFor master.ref ≠ [node]) :
    LeafOn graph masters P master leaf ↔
      match (Keyed.dict (leafRows graph masters)).lookup leaf with
      | none => ∀ node ∈ graph.nodesFor master.ref, P node
      | some (owner, number) => match (placedLeafs graph owner.ref).lookup number with
        | some node => P node
        | none => ∃ segment ∈ segmentsFor graph owner.ref, P segment := by
  unfold LeafOn
  split
  · rename_i node hnodes
    exact absurd hnodes (h node)
  · rfl

theorem candidateNode_segments {resolved : List TaskDocumentRef} {owningMaster : TaskDocumentRef}
    {leaf : TaskDocumentRef} (h : ∀ node, graph.nodesFor owningMaster ≠ [node]) :
    (contextOf graph masters resolved).candidateNode owningMaster leaf =
      (leafNodeIndex graph masters resolved).lookup leaf := by
  unfold QueueGraphContext.candidateNode contextOf
  dsimp only
  split
  · rename_i node hnodes
    exact absurd hnodes (h node)
  · rfl

/-- A leaf waits for nothing exactly when its node, wherever it is derived to,
waits for nothing. -/
theorem candidatePredecessors_eq_nil {resolved : List TaskDocumentRef} {master : MasterDocument}
    {leaf : TaskDocumentRef} :
    (contextOf graph masters resolved).candidatePredecessors master.ref leaf = [] ↔
      LeafOn graph masters (fun node => unblocked graph resolved node = true) master leaf := by
  unfold QueueGraphContext.candidatePredecessors
  by_cases hlump : ∃ node, graph.nodesFor master.ref = [node]
  · obtain ⟨node, hnodes⟩ := hlump
    have hnode : (contextOf graph masters resolved).candidateNode master.ref leaf = some node := by
      unfold QueueGraphContext.candidateNode contextOf
      dsimp only
      rw [hnodes]
    rw [hnode, leafOn_lump hnodes]
    exact incompletePredecessors_eq_nil
  · have hnot : ∀ node, graph.nodesFor master.ref ≠ [node] := fun node h => hlump ⟨node, h⟩
    have hlookup := lookup_leafNodeIndex graph masters resolved leaf
    rw [candidateNode_segments hnot, leafOn_segments hnot]
    cases hrow : (Keyed.dict (leafRows graph masters)).lookup leaf with
    | none =>
      rw [hrow, Option.map_none, Option.map_eq_none_iff] at hlookup
      rw [hlookup]
      dsimp only [QueueGraphContext.masterIncompletePredecessors, contextOf]
      rw [Deduped.eraseDups_eq_nil, List.flatMap_eq_nil_iff]
      exact forall₂_congr fun _ _ => incompletePredecessors_eq_nil
    | some row =>
      obtain ⟨owner, number⟩ := row
      have hsegments := segmentsFor_of_leafRows (Keyed.mem_of_mem_dict (Keyed.mem_of_lookup hrow))
      obtain ⟨node, hnode, hiff⟩ :=
        rowTarget_isSome resolved (owner, number) hsegments
      rw [hrow, Option.map_some, hnode] at hlookup
      obtain ⟨target, htarget, heq⟩ := Option.map_eq_some_iff.mp hlookup
      obtain rfl : target = node := Option.some.inj heq
      rw [htarget]
      exact incompletePredecessors_eq_nil.trans hiff

end leafs

/-! ## Progress -/

/-- Masters that are terminal, or whose leafs are closed, are resolved. -/
def sprintWork (sprint : Sprint) : Waiting.Work MasterDocument TaskDocumentRef where
  owners := sprint.masters
  finished := masterIsTerminal
  items := openLeafs
  ready resolved master leaf :=
    ((contextOf sprint.graph sprint.masters (resolved.map MasterDocument.ref)).candidatePredecessors
      master.ref leaf).isEmpty
  monotone := by
    intro resolved resolved' master leaf hsub h
    rw [List.isEmpty_iff, candidatePredecessors_eq_nil] at h ⊢
    refine h.mono fun node hnode => ?_
    unfold unblocked at hnode ⊢
    rw [List.all_eq_true] at hnode ⊢
    intro p hp
    obtain ⟨m, hm, href⟩ := List.mem_map.mp (of_decide_eq_true (hnode p hp))
    exact decide_eq_true (List.mem_map.mpr ⟨m, hsub m hm, href⟩)

/-- Masters that wait for each other: each has an open leaf whose node, or each
node it may be derived to, has one of them in front. -/
structure CircularWait (sprint : Sprint) (waiting : List MasterDocument) : Prop where
  some : waiting ≠ []
  open_ : ∀ master ∈ waiting, master ∈ sprint.masters ∧ masterIsTerminal master = false
  waits : ∀ master ∈ waiting, ∃ leaf ∈ openLeafs master,
    ¬LeafOn sprint.graph sprint.masters
      (fun node => ∀ p ∈ sprint.graph.predecessors node,
        p.ref ∉ waiting.map MasterDocument.ref) master leaf

/-- A sprint that never comes to a standstill, and can always be completed. -/
structure NeverDeadlocks (sprint : Sprint) : Prop where
  progress : ∀ closed, Runs.Reachable (sprintWork sprint).close [] closed →
    ¬(sprintWork sprint).AllDone closed → ∃ e, (sprintWork sprint).Closable closed e
  completion : ∀ closed, Runs.Reachable (sprintWork sprint).close [] closed →
    ∃ closed', Runs.Reachable (sprintWork sprint).close closed closed' ∧
      (sprintWork sprint).AllDone closed'

theorem graph_ref_mem (sprint : Sprint) {node : SprintExecutionNode}
    (h : node ∈ sprint.graph.nodes) : node.ref ∈ sprint.masters.map MasterDocument.ref := by
  have hvalid := sprint.valid
  unfold validateExecutionTopology at hvalid
  dsimp only at hvalid
  split at hvalid
  · cases hvalid
  · rename_i hmembers
    by_contra hmissing
    refine hmembers (.inr (List.ne_nil_of_mem (a := node.ref) ?_))
    exact List.mem_filter.mpr ⟨List.mem_map_of_mem h, decide_eq_true hmissing⟩

/-- A circle of the work is a circular wait of the sprint: with all the other
masters resolved, a node is blocked by those that wait. -/
theorem circle_iff (sprint : Sprint) (waiting : List MasterDocument) :
    (sprintWork sprint).Circle waiting ↔ CircularWait sprint waiting := by
  have hready : (∀ master ∈ waiting, master ∈ sprint.masters) → ∀ (master : MasterDocument)
      (leaf : TaskDocumentRef), (sprintWork sprint).ready
        (sprint.masters.filter fun m => m ∉ waiting) master leaf = false ↔
      ¬LeafOn sprint.graph sprint.masters (fun node => ∀ p ∈ sprint.graph.predecessors node,
        p.ref ∉ waiting.map MasterDocument.ref) master leaf := by
    intro hwaiting master leaf
    rw [← Bool.not_eq_true]
    show ¬List.isEmpty _ = true ↔ _
    rw [List.isEmpty_iff, candidatePredecessors_eq_nil]
    have hnode : ∀ node, unblocked sprint.graph ((sprint.masters.filter fun m => m ∉ waiting).map
        MasterDocument.ref) node = true ↔ ∀ p ∈ sprint.graph.predecessors node,
          p.ref ∉ waiting.map MasterDocument.ref := by
      intro node
      unfold unblocked
      rw [List.all_eq_true]
      refine forall₂_congr fun p hp => ?_
      rw [decide_eq_true_iff]
      constructor
      · intro hothers hmem
        obtain ⟨m, hm, href⟩ := List.mem_map.mp hothers
        obtain ⟨m', hm', href'⟩ := List.mem_map.mp hmem
        obtain ⟨hm, hnot⟩ := List.mem_filter.mp hm
        have heq := List.inj_on_of_nodup_map sprint.distinct hm (hwaiting m' hm')
          (href.trans href'.symm)
        rw [heq] at hnot
        exact of_decide_eq_true hnot hm'
      · intro hnot
        obtain ⟨m, hm, href⟩ := List.mem_map.mp (graph_ref_mem sprint (predecessor_mem hp))
        refine List.mem_map.mpr ⟨m, List.mem_filter.mpr ⟨hm, decide_eq_true fun hmem => ?_⟩, href⟩
        exact hnot (List.mem_map.mpr ⟨m, hmem, href⟩)
    exact not_congr ⟨LeafOn.mono fun node => (hnode node).mp, LeafOn.mono fun node => (hnode node).mpr⟩
  constructor
  · rintro ⟨hsome, hopen, hwaits⟩
    refine ⟨hsome, hopen, fun master hmaster => ?_⟩
    obtain ⟨leaf, hleaf, hblocked⟩ := hwaits master hmaster
    exact ⟨leaf, hleaf, (hready (fun m hm => (hopen m hm).1) master leaf).mp hblocked⟩
  · rintro ⟨hsome, hopen, hwaits⟩
    refine ⟨hsome, hopen, fun master hmaster => ?_⟩
    obtain ⟨leaf, hleaf, hblocked⟩ := hwaits master hmaster
    exact ⟨leaf, hleaf, (hready (fun m hm => (hopen m hm).1) master leaf).mpr hblocked⟩

/-- A sprint never deadlocks exactly when no masters of it wait in a circle. -/
theorem sprint_never_deadlocks_iff (sprint : Sprint) :
    NeverDeadlocks sprint ↔ ¬∃ waiting, CircularWait sprint waiting := by
  rw [exists_congr fun waiting => (circle_iff sprint waiting).symm, ← Waiting.Work.never_stuck_iff]
  constructor
  · rintro ⟨hprogress, -⟩ closed hreach ⟨hopen, hstuck⟩
    obtain ⟨e, he⟩ := hprogress closed hreach hopen
    exact hstuck e he
  · intro h
    refine ⟨fun closed hreach hopen => ?_, fun closed hreach => Waiting.Work.exists_allDone h hreach⟩
    by_contra hno
    exact h closed hreach ⟨hopen, fun e he => hno ⟨e, he⟩⟩

/-! ## Two segments of one master -/

/-- A master of two planned leafs. -/
def seriesMaster : MasterDocument where
  ref := ⟨"repository", "series/task.json"⟩
  executionNature := some "organizational"
  subTasks := [{ number := "L1", file := "l1.md" }, { number := "L2", file := "l2.md" }]

/-- The second segment of the series waits for the first. -/
def seriesGraph : SprintExecutionGraph where
  nodes :=
    [{ kind := .segment, ref := seriesMaster.ref, leafIds := ["L1"], checked := by decide },
      { kind := .segment, ref := seriesMaster.ref, leafIds := ["L2"], checked := by decide }]
  edges := [⟨⟨seriesMaster.ref, some "L1"⟩, ⟨seriesMaster.ref, some "L2"⟩⟩]
  analysis :=
    { resolvedEdgeIndexes := [(0, 1)]
      waves :=
        [[{ kind := .segment, ref := seriesMaster.ref, leafIds := ["L1"], checked := by decide }],
          [{ kind := .segment, ref := seriesMaster.ref, leafIds := ["L2"], checked := by decide }]] }
  nonempty := by simp
  valid := by decide +kernel

/-- The sprint whose only master waits for itself. -/
def seriesSprint : Sprint where
  graph := seriesGraph
  masters := [seriesMaster]
  distinct := by simp
  valid := by decide +kernel

/-- The graph is admitted, but once the first leaf is closed the second one waits
for its own master. -/
theorem admitted_sprint_deadlocks : ¬∀ sprint : Sprint, NeverDeadlocks sprint := by
  intro h
  have hreach : Runs.Reachable (sprintWork seriesSprint).close []
      [(seriesMaster, ⟨"repository", "series/l1.json"⟩)] :=
    ⟨[(seriesMaster, ⟨"repository", "series/l1.json"⟩)], by decide +kernel⟩
  obtain ⟨⟨master, leaf⟩, hclosable⟩ := (h seriesSprint).progress _ hreach (by
    unfold Waiting.Work.AllDone
    decide +kernel)
  have hmaster : master = seriesMaster := List.mem_singleton.mp hclosable.1
  subst hmaster
  have hleaf : leaf ∈ openLeafs seriesMaster := hclosable.2.2.1
  revert hclosable
  have hstuck : ∀ leaf ∈ openLeafs seriesMaster, ¬(sprintWork seriesSprint).Closable
      [(seriesMaster, ⟨"repository", "series/l1.json"⟩)] (seriesMaster, leaf) := by
    decide +kernel
  exact hstuck leaf hleaf

end AgentsRemember.Queue
