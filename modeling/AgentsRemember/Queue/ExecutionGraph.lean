import AgentsRemember.Foundation.Attempts
import AgentsRemember.Foundation.Keyed

/-!
# Queue — ExecutionGraph

The execution graph of a sprint: its nodes, each a whole master or a segment of
its leafs, its edges, and the admission of a graph, which resolves the edges and
derives the waves. The counters of the work and the members of a refused cycle
are left out.
-/

namespace AgentsRemember.Queue

/-- The identity of a task document. -/
structure TaskDocumentRef where
  repository : String
  path : String
deriving DecidableEq

/-- A whole master, or a segment of its leafs. -/
inductive NodeKind where
  | master | segment
deriving DecidableEq

/-- One schedulable unit; a segment names its leafs, each once. -/
structure SprintExecutionNode where
  kind : NodeKind := .master
  ref : TaskDocumentRef
  leafIds : List String := []
  checked : if kind = .segment then leafIds ≠ [] ∧ leafIds.Nodup else leafIds = []
deriving DecidableEq

/-- One end of an edge; a leaf names the segment it is in. -/
structure SprintExecutionEndpoint where
  ref : TaskDocumentRef
  leafId : Option String := none
deriving DecidableEq

/-- The successor waits for the predecessor. -/
structure SprintExecutionEdge where
  predecessor : SprintExecutionEndpoint
  successor : SprintExecutionEndpoint
deriving DecidableEq

/-- Why a graph is refused. -/
inductive GraphRefusal where
  | duplicateNodes
  | lumpAndSegment (ref : TaskDocumentRef)
  | leafPlacedTwice (leaf : String) (owner ref : TaskDocumentRef)
  | leafNotPlaced (leaf : String) (ref : TaskDocumentRef)
  | undeclaredNode (ref : TaskDocumentRef)
  | ambiguous (ref : TaskDocumentRef)
  | selfEdge
  | duplicateEdges
  | cyclic
deriving DecidableEq

/-- What the validation of a graph returns. -/
structure ExecutionGraphAnalysis where
  resolvedEdgeIndexes : List (Nat × Nat)
  waves : List (List SprintExecutionNode)
deriving DecidableEq

section validation
variable (nodes : List SprintExecutionNode)

/-! ## Endpoints -/

/-- The nodes an endpoint may mean, with their indexes. -/
def endpointMatches (endpoint : SprintExecutionEndpoint) : List (SprintExecutionNode × Nat) :=
  nodes.zipIdx.filter fun e => e.1.ref = endpoint.ref ∧ ∀ leaf ∈ endpoint.leafId, leaf ∈ e.1.leafIds

/-- An endpoint names exactly one node. -/
def resolveEndpoint (endpoint : SprintExecutionEndpoint) :
    Except GraphRefusal (SprintExecutionNode × Nat) :=
  match endpointMatches nodes endpoint, endpoint.leafId with
  | [], some leaf => .error (.leafNotPlaced leaf endpoint.ref)
  | [], none => .error (.undeclaredNode endpoint.ref)
  | [found], _ => .ok found
  | _ :: _ :: _, _ => .error (.ambiguous endpoint.ref)

/-- The indexes of both ends, which differ. -/
def resolveEdge (edge : SprintExecutionEdge) : Except GraphRefusal (Nat × Nat) := do
  let predecessor ← resolveEndpoint nodes edge.predecessor
  let successor ← resolveEndpoint nodes edge.successor
  if predecessor.2 = successor.2 then .error .selfEdge
  else .ok (predecessor.2, successor.2)

/-- All edges, none of them twice. -/
def resolveEdges (edges : List SprintExecutionEdge) : Except GraphRefusal (List (Nat × Nat)) := do
  let resolved ← edges.mapM (resolveEdge nodes)
  if resolved.Nodup then .ok resolved else .error .duplicateEdges

/-! ## Ownership -/

/-- A master appears as one lump, or as segments. -/
def checkLumps : Except GraphRefusal Unit :=
  (nodes.map SprintExecutionNode.ref).eraseDups.forM fun ref =>
    if 1 < (nodes.filter fun node => node.ref = ref).length ∧
        nodes.any fun node => node.ref = ref && node.kind = .master then
      .error (.lumpAndSegment ref)
    else .ok ()

/-- A leaf is placed once in the whole graph. -/
def checkLeafs : List (String × TaskDocumentRef) → List (String × TaskDocumentRef) →
    Except GraphRefusal Unit
  | _, [] => .ok ()
  | placed, (leaf, ref) :: rest =>
    match placed.lookup leaf with
    | some owner => .error (.leafPlacedTwice leaf owner ref)
    | none => checkLeafs (placed ++ [(leaf, ref)]) rest

/-! ## Waves -/

/-- For each node, the edges that lead to it. -/
def indegrees (edges : List (Nat × Nat)) : List Nat :=
  (List.range nodes.length).map fun index => edges.countP fun e => e.2 = index

/-- The nodes the edges of one node lead to. -/
def successorsOf (edges : List (Nat × Nat)) (index : Nat) : List Nat :=
  (edges.filter fun e => e.1 = index).map Prod.snd

/-- One dependency less; a node without any is ready next. -/
def visitSuccessor (acc : List Nat × List Nat) (successor : Nat) : List Nat × List Nat :=
  let left := acc.1.getD successor 0 - 1
  (acc.1.set successor left, if left = 0 then acc.2 ++ [successor] else acc.2)

/-- The loop of `_derive_waves`: one wave a round. -/
def waveLoop (edges : List (Nat × Nat)) : Nat → List Nat → List Nat → List (List Nat)
  | 0, _, _ => []
  | fuel + 1, indegree, ready =>
    if ready.isEmpty then []
    else
      let wave := ready.mergeSort
      let (indegree, next) :=
        (wave.flatMap (successorsOf edges)).foldl visitSuccessor (indegree, [])
      wave :: waveLoop edges fuel indegree next

/-- Kahn's waves; a cycle is refused. -/
def deriveWaves (edges : List (Nat × Nat)) :
    Except GraphRefusal (List (List SprintExecutionNode)) :=
  let indegree := indegrees nodes edges
  let ready := (List.range nodes.length).filter fun index => indegree.getD index 0 = 0
  let waves := waveLoop edges (nodes.length + 1) indegree ready
  if (waves.map List.length).sum = nodes.length then
    .ok (waves.map fun wave => wave.filterMap fun index => nodes[index]?)
  else .error .cyclic

end validation

/-- `validate_execution_graph`, its checks in their order. -/
def validateExecutionGraph (nodes : List SprintExecutionNode) (edges : List SprintExecutionEdge) :
    Except GraphRefusal ExecutionGraphAnalysis := do
  if !nodes.Nodup then .error .duplicateNodes
  checkLumps nodes
  checkLeafs [] (nodes.flatMap fun node => node.leafIds.map fun leaf => (leaf, node.ref))
  let resolved ← resolveEdges nodes edges
  let waves ← deriveWaves nodes resolved
  .ok { resolvedEdgeIndexes := resolved, waves := waves }

/-- A graph that has passed its validation. -/
structure SprintExecutionGraph where
  nodes : List SprintExecutionNode
  edges : List SprintExecutionEdge := []
  analysis : ExecutionGraphAnalysis
  nonempty : nodes ≠ []
  valid : validateExecutionGraph nodes edges = .ok analysis

namespace SprintExecutionGraph
variable (graph : SprintExecutionGraph)

/-- The nodes of one master, in declaration order. -/
def nodesFor (ref : TaskDocumentRef) : List SprintExecutionNode :=
  graph.nodes.filter fun node => node.ref = ref

/-- The nodes an endpoint of an admitted edge resolves to; there is one. -/
def resolve (endpoint : SprintExecutionEndpoint) : Option SprintExecutionNode :=
  (resolveEndpoint graph.nodes endpoint).toOption.map Prod.fst

/-- What the analysis has in front of a node. -/
def predecessors (node : SprintExecutionNode) : List SprintExecutionNode :=
  graph.analysis.resolvedEdgeIndexes.filterMap fun e =>
    if graph.nodes[e.2]? = some node then graph.nodes[e.1]? else none

end SprintExecutionGraph

/-! ## What admission gives -/

open Attempts

theorem resolveEndpoint_eq_ok {nodes : List SprintExecutionNode}
    {endpoint : SprintExecutionEndpoint} {found : SprintExecutionNode × Nat}
    (h : resolveEndpoint nodes endpoint = .ok found) : nodes[found.2]? = some found.1 := by
  have hmem : found ∈ endpointMatches nodes endpoint := by
    unfold resolveEndpoint at h
    split at h
    · cases h
    · cases h
    · rename_i hmatches
      cases h
      rw [hmatches]
      exact List.mem_singleton_self _
    · cases h
  exact List.mem_zipIdx_iff_getElem?.mp (List.mem_filter.mp hmem).1

theorem resolveEdge_eq_ok {nodes : List SprintExecutionNode} {edge : SprintExecutionEdge}
    {e : Nat × Nat} (h : resolveEdge nodes edge = .ok e) :
    ∃ p s, resolveEndpoint nodes edge.predecessor = .ok (p, e.1) ∧
      resolveEndpoint nodes edge.successor = .ok (s, e.2) := by
  obtain ⟨⟨p, i⟩, hp, h⟩ := bind_eq_ok.mp h
  obtain ⟨⟨s, j⟩, hs, h⟩ := bind_eq_ok.mp h
  dsimp only at h
  split at h
  · cases h
  · cases h
    exact ⟨p, s, hp, hs⟩

theorem resolvedEdgeIndexes_eq (graph : SprintExecutionGraph) :
    graph.edges.mapM (resolveEdge graph.nodes) = .ok graph.analysis.resolvedEdgeIndexes := by
  have h := graph.valid
  unfold validateExecutionGraph at h
  split at h
  · cases h
  obtain ⟨_, -, h⟩ := bind_eq_ok.mp h
  obtain ⟨_, -, h⟩ := bind_eq_ok.mp h
  obtain ⟨resolved, hresolved, h⟩ := bind_eq_ok.mp h
  obtain ⟨waves, -, h⟩ := bind_eq_ok.mp h
  rw [← Except.ok.inj h]
  obtain ⟨edges, hedges, h⟩ := bind_eq_ok.mp hresolved
  split at h
  · cases h
    exact hedges
  · cases h

/-- The predecessors of a node, read off the edges. -/
theorem mem_predecessors {graph : SprintExecutionGraph} {node p : SprintExecutionNode} :
    p ∈ graph.predecessors node ↔ ∃ edge ∈ graph.edges,
      graph.resolve edge.predecessor = some p ∧ graph.resolve edge.successor = some node := by
  have hresolve : ∀ {endpoint found}, resolveEndpoint graph.nodes endpoint = .ok found →
      graph.resolve endpoint = some found.1 := by
    intro endpoint found h
    unfold SprintExecutionGraph.resolve
    rw [h]
    rfl
  unfold SprintExecutionGraph.predecessors
  rw [List.mem_filterMap]
  constructor
  · rintro ⟨⟨i, j⟩, hmem, he⟩
    obtain ⟨edge, hedge, hok⟩ := (mem_mapM (resolvedEdgeIndexes_eq graph) _).mp hmem
    obtain ⟨p', s', hp, hs⟩ := resolveEdge_eq_ok hok
    have hp' := resolveEndpoint_eq_ok hp
    have hs' := resolveEndpoint_eq_ok hs
    dsimp only at he hp' hs'
    split at he
    · rename_i hj
      rw [hs'] at hj
      rw [hp'] at he
      cases he
      cases hj
      exact ⟨edge, hedge, hresolve hp, hresolve hs⟩
    · cases he
  · rintro ⟨edge, hedge, hp, hs⟩
    obtain ⟨⟨i, j⟩, hok⟩ := ok_of_mem_mapM (resolvedEdgeIndexes_eq graph) hedge
    obtain ⟨p', s', hp', hs'⟩ := resolveEdge_eq_ok hok
    rw [hresolve hp'] at hp
    rw [hresolve hs'] at hs
    cases hp
    cases hs
    refine ⟨(i, j), (mem_mapM (resolvedEdgeIndexes_eq graph) _).mpr ⟨edge, hedge, hok⟩, ?_⟩
    dsimp only
    rw [if_pos (resolveEndpoint_eq_ok hs'), resolveEndpoint_eq_ok hp']

theorem predecessor_mem {graph : SprintExecutionGraph} {node p : SprintExecutionNode}
    (h : p ∈ graph.predecessors node) : p ∈ graph.nodes := by
  obtain ⟨e, -, he⟩ := List.mem_filterMap.mp h
  split at he
  · exact List.mem_of_getElem? he
  · cases he

end AgentsRemember.Queue
