import AgentsRemember.Queue.ExecutionGraph

/-!
# Queue — Placement

Which node schedules a leaf, and what that node still waits for: the leafs of a
segmented master are placed by the graph, or behind its latest segment that is
not blocked; a predecessor counts until its whole master is resolved.
-/

namespace AgentsRemember.Queue

/-- A row of a master's table of sub-tasks. -/
structure SubTaskRef where
  number : String
  file : String := ""
  status : String := "planning"
deriving DecidableEq

/-- A master's task document. -/
structure MasterDocument where
  ref : TaskDocumentRef
  status : String := "planning"
  executionNature : Option String := none
  subTasks : List SubTaskRef
deriving DecidableEq

/-! ## Terminal masters -/

/-- The statuses of a row that needs no more work. -/
def resolvedMasterRowStatuses : List String := ["Completed", "abandoned"]

/-- The rows that still need work. -/
def completionBlockers (doc : MasterDocument) : List SubTaskRef :=
  doc.subTasks.filter fun row => row.status ∉ resolvedMasterRowStatuses

/-- Abandoned, or completed with no row left. -/
def masterIsTerminal (doc : MasterDocument) : Bool :=
  doc.status = "abandoned" || (doc.status = "Completed" && (completionBlockers doc).isEmpty)

/-! ## Paths -/

/-- The last component of a path, without its suffix. -/
def stem (path : String) : String :=
  let name := ((path.toList.splitOn '/').filter fun part => part ≠ [] ∧ part ≠ ['.']).getLast?.getD []
  let last := (name.reverse.dropWhile fun c => c ≠ '.').reverse
  -- a dot in front of the name, or behind it, begins no suffix
  if last.length ≤ 1 ∨ last.length = name.length then String.ofList name
  else String.ofList last.dropLast

/-- The directory of a canonical path, as it is written in front of a name. -/
def directory (path : String) : String :=
  String.ofList (path.toList.reverse.dropWhile fun c => c ≠ '/').reverse

/-- The reference `_leaf_node_index` writes for a row, beside its master's. The reference's own
validation is left out: it turns a backslash into a slash and refuses a name without a stem. -/
def leafRef (master : TaskDocumentRef) (file : String) : TaskDocumentRef where
  repository := master.repository
  path := directory master.path ++ stem file ++ ".json"

/-! ## Placement -/

/-- Where the planned leafs of a master stand. -/
structure LeafPlacement where
  placed : List (String × SprintExecutionNode)
  unknownLeafIds : List String
  unplacedLeafIds : List String
  derived : List (String × SprintExecutionNode)
  derivedAllBlocked : Bool

section placement
variable (graph : SprintExecutionGraph)

/-- A segment nothing of which is waited for. -/
def unblocked (resolved : List TaskDocumentRef) (node : SprintExecutionNode) : Bool :=
  (graph.predecessors node).all fun predecessor => predecessor.ref ∈ resolved

/-- The wave that holds the node. -/
def waveOf (node : SprintExecutionNode) : Nat :=
  graph.analysis.waves.findIdx fun wave => node ∈ wave

/-- The node's place in the declaration. -/
def declaration (node : SprintExecutionNode) : Nat := graph.nodes.idxOf node

/-- The latest segment that is not blocked, else the latest of all. -/
def latestUnblockedSegment (segments : List SprintExecutionNode)
    (resolved : List TaskDocumentRef) : Option SprintExecutionNode × Bool :=
  let ordered := segments.mergeSort fun a b =>
    waveOf graph a < waveOf graph b ||
      (waveOf graph a = waveOf graph b && declaration graph a ≤ declaration graph b)
  match ordered.reverse.find? (unblocked graph resolved) with
  | some candidate => (some candidate, false)
  | none => (ordered.getLast?, true)

/-- The segment nodes of a master. -/
def segmentsFor (ref : TaskDocumentRef) : List SprintExecutionNode :=
  (graph.nodesFor ref).filter fun node => node.kind = .segment

/-- The leafs the segments name themselves. -/
def placedLeafs (ref : TaskDocumentRef) : List (String × SprintExecutionNode) :=
  Keyed.dict ((segmentsFor graph ref).flatMap fun node => node.leafIds.map fun leaf => (leaf, node))

/-- `derived_leaf_placement`: authored places first, then derived ones. -/
def derivedLeafPlacement (masterRef : TaskDocumentRef) (plannedLeafIds : List String)
    (resolved : List TaskDocumentRef) : LeafPlacement :=
  let segments := segmentsFor graph masterRef
  if segments.isEmpty then
    { placed := [], unknownLeafIds := [], unplacedLeafIds := [], derived := []
      derivedAllBlocked := false }
  else
    let planned := plannedLeafIds.eraseDups
    let placed := placedLeafs graph masterRef
    let unplaced := planned.filter fun leaf => leaf ∉ placed.map Prod.fst
    let (target, allBlocked) :=
      if unplaced.isEmpty then (none, false) else latestUnblockedSegment graph segments resolved
    { placed := placed
      unknownLeafIds := (placed.map Prod.fst).filter fun leaf => leaf ∉ planned
      unplacedLeafIds := unplaced
      derived := unplaced.filterMap fun leaf => target.map fun node => (leaf, node)
      derivedAllBlocked := allBlocked }

/-- The segment of a row: where it is derived, or else where it is placed. -/
def LeafPlacement.target (placement : LeafPlacement) (number : String) :
    Option SprintExecutionNode :=
  (placement.derived.lookup number).or (placement.placed.lookup number)

/-! ## The queue's graph -/

/-- What a node waits for, in the order of the nodes. -/
def incompletePredecessors (resolved : List TaskDocumentRef) (node : SprintExecutionNode) :
    List SprintExecutionNode :=
  graph.nodes.flatMap fun predecessor =>
    if predecessor.ref ∈ resolved then []
    else (graph.edges.filter fun edge => graph.resolve edge.predecessor = some predecessor ∧
      graph.resolve edge.successor = some node).map fun _ => predecessor

/-- What a candidate is looked up in. -/
structure QueueGraphContext where
  nodesByMaster : TaskDocumentRef → List SprintExecutionNode
  leafNodes : List (TaskDocumentRef × SprintExecutionNode)
  incompletePredecessors : SprintExecutionNode → List SprintExecutionNode

/-- The rows that have a document and a segment, with both. -/
def leafEntries (resolved : List TaskDocumentRef) (master : MasterDocument) :
    List (TaskDocumentRef × SprintExecutionNode) :=
  let placement := derivedLeafPlacement graph master.ref
    (master.subTasks.map SubTaskRef.number) resolved
  master.subTasks.filterMap fun row =>
    if row.file = "" then none
    else (placement.target row.number).map fun node => (leafRef master.ref row.file, node)

/-- `_leaf_node_index`, over all masters. -/
def leafNodeIndex (masters : List MasterDocument) (resolved : List TaskDocumentRef) :
    List (TaskDocumentRef × SprintExecutionNode) :=
  Keyed.dict (masters.flatMap (leafEntries graph resolved))

/-- The context when these masters are resolved. -/
def contextOf (masters : List MasterDocument) (resolved : List TaskDocumentRef) :
    QueueGraphContext where
  nodesByMaster := graph.nodesFor
  leafNodes := leafNodeIndex graph masters resolved
  incompletePredecessors := incompletePredecessors graph resolved

/-- The context of a sprint, its terminal masters resolved. -/
def graphContext (masters : List MasterDocument) : QueueGraphContext :=
  contextOf graph masters ((masters.filter masterIsTerminal).map MasterDocument.ref)

end placement

namespace QueueGraphContext
variable (context : QueueGraphContext)

/-- The node that schedules a candidate. -/
def candidateNode (owningMaster leaf : TaskDocumentRef) : Option SprintExecutionNode :=
  match context.nodesByMaster owningMaster with
  | [node] => some node
  | _ => context.leafNodes.lookup leaf

/-- What any node of the master still waits for. -/
def masterIncompletePredecessors (master : TaskDocumentRef) : List SprintExecutionNode :=
  ((context.nodesByMaster master).flatMap context.incompletePredecessors).eraseDups

/-- What the node of a candidate waits for, or its master without one. -/
def candidatePredecessors (owningMaster leaf : TaskDocumentRef) : List SprintExecutionNode :=
  match context.candidateNode owningMaster leaf with
  | some node => context.incompletePredecessors node
  | none => context.masterIncompletePredecessors owningMaster

end QueueGraphContext

end AgentsRemember.Queue
