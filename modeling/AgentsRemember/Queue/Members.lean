import AgentsRemember.Foundation.Lines
import AgentsRemember.Foundation.Ranked
import AgentsRemember.Queue.Deadlock
import AgentsRemember.Queue.ProjectionState
import Mathlib.Data.List.DropRight
import Mathlib.Data.List.Infix
import Mathlib.Data.String.Basic

/-!
# Queue — Members

The census of a sprint: its masters and their leafs, the doors that wait at
them, and the projection's member of each door, with its readiness and its place.
What is read from files beside the task documents is a record of reads. A series
has no door of its own, so only leafs have waiting doors.
-/

namespace AgentsRemember.Queue

/-! ## Problems -/

/-- The refusals of a sprint beyond its capacity. -/
def capacityRefusalCodes : List String :=
  ["closeout-queue-master-capacity-exceeded", "closeout-queue-edge-capacity-exceeded",
    "source-problem-cap-exceeded"]

/-- An error type that holds the marker. -/
def hasMarker (errorType marker : String) : Bool :=
  decide (marker.toList <:+: errorType.toList)

/-- One problem, its state read off the error type. -/
def problem (kind : ProblemKind) (address errorType repair : String) :
    ProjectionSourceProblem where
  kind := kind
  address := address
  state :=
    if ["missing", "not-found"].any (hasMarker errorType) then .missing
    else if errorType ∈ capacityRefusalCodes ∨
        ["invalid", "mismatch", "conflict"].any (hasMarker errorType) = true ∨
        errorType = "sprint-required" then .invalid
    else .unreadable
  errorType := errorType
  repairAction := repair

/-- At most the cap, the last of them saying that some are left out. -/
def boundedSourceProblems (problems : List ProjectionSourceProblem) (sprintRef : TaskDocumentRef) :
    List ProjectionSourceProblem :=
  let unique := problems.eraseDups
  if unique.length ≤ maxCloseoutSourceProblems then unique
  else unique.take (maxCloseoutSourceProblems - 1) ++
    [problem .projection sprintRef.key "source-problem-cap-exceeded"
      "repair the reported canonical sources, then rebuild"]

/-! ## Sources -/

/-- Where a door stands. -/
inductive CloseoutDoorDisposition where
  | waiting | deferred | withdrawn | claimed
deriving DecidableEq

/-- What admitted the door, and what it still waits for. -/
structure DoorAdmissionProvenance where
  resourceReady : Bool := true
  resourceReason : String := ""
  admissionReady : Bool := true
  admissionReason : String := ""

/-- The digest of a task intent. -/
structure TaskIntentIdentity where
  digest : String
deriving DecidableEq

/-- One generation of a leaf's closeout door. -/
structure CloseoutDoorGeneration where
  generationId : String
  disposition : CloseoutDoorDisposition
  taskDocumentRef : TaskDocumentRef
  owningMasterTaskDocumentRef : TaskDocumentRef
  sprintTaskDocumentRef : TaskDocumentRef
  contractPath : String
  candidateTree : String
  taskTopologyFingerprint : String
  /-- None is a door of before there were intents. -/
  taskIntent : Option TaskIntentIdentity
  admissionProvenance : DoorAdmissionProvenance := {}
  /-- The priority of its scheduling provenance. -/
  priority : PriorityGrade

/-- What is at a declared enclosure: the kind of its contract, and the live door. -/
structure DoorSource where
  address : String
  contractKind : Option String := none
  door : Option CloseoutDoorGeneration := none

/-- A leaf's task document, as far as the census reads it. -/
structure LeafDocument where
  ref : TaskDocumentRef
  /-- The steps that are not done. -/
  completionBlockers : List String := []
deriving DecidableEq

/-- A leaf of a master, with the two positions that its order is made of. -/
structure CensusLeaf where
  leaf : LeafDocument
  master : MasterDocument
  masterIndex : Nat
  leafIndex : Nat

/-- The packed place of a leaf: a thousand numbers for each master. -/
def CensusLeaf.order (entry : CensusLeaf) : Nat := entry.masterIndex * 1000 + entry.leafIndex

/-- A door that waits, with the leaf it belongs to. -/
structure WaitingDoor where
  source : DoorSource
  door : CloseoutDoorGeneration
  entry : CensusLeaf

/-- The evidence of a waiting door, as it is read for its member. -/
structure MemberFacts where
  /-- Of the candidate's evidence, and then of its scheduling. -/
  sourceBlockers : List String
  taskTopologyFingerprint : String
  taskIntent : TaskIntentIdentity

/-- The sprint's own task document. -/
structure SprintDocument where
  document : MasterDocument
  orchestrates : Bool := true
  executionGraph : Option SprintExecutionGraph := none

/-- What the census reads, with the status of every read that is refused. -/
structure ProjectionReads where
  commandedMasters : Except String (List MasterDocument)
  sprintLinkage : Except String Unit := .ok ()
  resolveLeaf : MasterDocument → SubTaskRef → Except ProjectionSourceProblem LeafDocument
  seriesProblems : MasterDocument → List ProjectionSourceProblem := fun _ => []
  activationWaiting : TaskDocumentRef → List String := fun _ => []
  doorSources : LeafDocument → List ProjectionSourceProblem × List DoorSource
  /-- The semantic topology of the graph and the planning registers. -/
  planningAuthorities : Except String Unit := .ok ()
  memberFacts : WaitingDoor → Except ProjectionSourceProblem MemberFacts
  doorFingerprint : CloseoutDoorGeneration → String
  payloadFingerprint : List CloseoutProjectionMember → String

/-! ## Masters and leafs -/

/-- The status text of a refusal. -/
def TopologyRefusal.status : TopologyRefusal → String
  | .membership _ _ => "task-execution-graph-membership-invalid"
  | .natureMissing _ => "task-execution-topology-migration-required"
  | .segmentOnAtomic _ => "task-execution-graph-node-kind-invalid"

section census
variable (reads : ProjectionReads) (sprint : SprintDocument)

/-- The masters of the sprint, once the graph agrees with them. -/
def commandedSprintMasters : Except String (List MasterDocument) := do
  let masters ← reads.commandedMasters
  match sprint.executionGraph with
  | none => .ok masters
  | some graph =>
    match validateExecutionTopology graph masters with
    | .error refusal => .error refusal.status
    | .ok () =>
      reads.sprintLinkage
      .ok masters

/-- The rows of a master that name a file, each at its own index. -/
def masterLeafs (masterIndex : Nat) (master : MasterDocument) :
    List (Except ProjectionSourceProblem CensusLeaf) :=
  master.subTasks.zipIdx.filterMap fun (row, leafIndex) =>
    if row.file = "" then none
    else some ((reads.resolveLeaf master row).map fun leaf => ⟨leaf, master, masterIndex, leafIndex⟩)

/-- The leafs of all masters, in order. -/
def censusLeafs (masters : List MasterDocument) :
    List (Except ProjectionSourceProblem CensusLeaf) :=
  masters.zipIdx.flatMap fun (master, masterIndex) => masterLeafs reads masterIndex master

/-! ## Doors -/

/-- The door names the leaf, the master, the sprint and the file it is read from. -/
def leafDoorIdentityMatches (source : DoorSource) (door : CloseoutDoorGeneration)
    (entry : CensusLeaf) : Bool :=
  door.taskDocumentRef = entry.leaf.ref ∧
    door.owningMasterTaskDocumentRef = entry.master.ref ∧
    door.sprintTaskDocumentRef = sprint.document.ref ∧ door.contractPath = source.address

/-- The waiting door of one source, or its problem. -/
def leafProjectionDoor (entry : CensusLeaf) (source : DoorSource) :
    Except ProjectionSourceProblem (Option WaitingDoor) :=
  if source.contractKind.isSome ∧ source.contractKind ≠ some "leaf" then
    .error (problem .door source.address "enclosure-contract-kind-invalid"
      "repair the exact leaf enclosure contract")
  else
    match source.door with
    | none => .ok none
    | some door =>
      if leafDoorIdentityMatches sprint source door entry then .ok (some ⟨source, door, entry⟩)
      else .error (problem .door source.address "door-canonical-identity-mismatch"
        "publish a successor from the exact task-owned enclosure")

/-- The problems of a leaf's doors, and its doors. -/
def leafProjectionDoors (entry : CensusLeaf) : List ProjectionSourceProblem × List WaitingDoor :=
  let (unreadable, sources) := reads.doorSources entry.leaf
  let doors := sources.map (leafProjectionDoor sprint entry)
  (unreadable ++ doors.filterMap fun door => match door with | .error p => some p | .ok _ => none,
    doors.filterMap fun door => match door with | .error _ => none | .ok door => door)

/-- The problems of the task documents, of the series and of the doors, in this
order, and the doors that wait. -/
def doorCensus (masters : List MasterDocument) :
    List ProjectionSourceProblem × List WaitingDoor :=
  let rows := censusLeafs reads masters
  let entries := rows.filterMap Except.toOption
  let doors := entries.map (leafProjectionDoors reads sprint)
  (rows.filterMap (fun row => match row with | .error p => some p | .ok _ => none) ++
      masters.flatMap reads.seriesProblems ++ doors.flatMap Prod.fst,
    (doors.flatMap Prod.snd).filter fun w => w.door.disposition = .waiting)

/-- No generation and no leaf waits twice. -/
def requireWaitingDoorIdentities (waiting : List WaitingDoor) : List ProjectionSourceProblem :=
  if (waiting.map fun w => w.door.generationId).Nodup ∧
      (waiting.map fun w => w.entry.leaf.ref.key).Nodup then []
  else [problem .door sprint.document.ref.key "waiting-door-identity-conflict"
    "withdraw conflicting current door generations before rebuilding"]

/-! ## Members -/

/-- The cap on the masters of a sprint. -/
def maxCloseoutMasters : Nat := 256

/-- The cap on the edges of a graph. -/
def maxCloseoutGraphEdges : Nat := 4096

/-- The graph that places the members of a sprint, or none of a sprint without one. -/
def queueGraph (masters : List MasterDocument) : Except String (Option QueueGraphContext) :=
  match sprint.executionGraph with
  | none => do
    reads.planningAuthorities
    .ok none
  | some graph =>
    if graph.nodes.length > maxCloseoutMasters then
      .error "closeout-queue-master-capacity-exceeded"
    else if graph.edges.length > maxCloseoutGraphEdges then
      .error "closeout-queue-edge-capacity-exceeded"
    else do
      reads.planningAuthorities
      .ok (some (graphContext graph masters))

end census

/-- All that a member is computed from. -/
structure ProjectionMemberContext where
  waiting : WaitingDoor
  graph : Option QueueGraphContext
  /-- The place of every node in the graph's declaration. -/
  nodeOrder : SprintExecutionNode → Nat
  facts : MemberFacts
  activationWaiting : List String := []

/-- The cap on the reasons of a member. -/
def maxCloseoutReasons : Nat := 264

/-- `str.strip`. -/
def stripped (text : String) : String :=
  String.ofList ((text.toList.dropWhile Lines.isSpace).rdropWhile Lines.isSpace)

/-- The reasons without repetitions, at most the cap. -/
def boundedReasons (reasons : List String) : List String :=
  let unique := ((reasons.map stripped).filter fun reason => reason ≠ "").eraseDups
  if unique.length ≤ maxCloseoutReasons then unique
  else unique.take (maxCloseoutReasons - 1) ++ ["additional-readiness-reasons-omitted"]

/-- How a reason names a node. -/
def predecessorLabel (node : SprintExecutionNode) : String :=
  if node.kind = .segment then
    node.ref.key ++ " (leafs: " ++ ", ".intercalate node.leafIds ++ ")"
  else node.ref.key

/-- What the admission still waits for. -/
def admissionWaitingReasons (admission : DoorAdmissionProvenance) : List String :=
  (if admission.resourceReady then [] else ["resource-unavailable: " ++ admission.resourceReason]) ++
    (if admission.admissionReady then []
      else ["admission-blocked: " ++ admission.admissionReason])

namespace ProjectionMemberContext
variable (context : ProjectionMemberContext)

/-- The door of the member. -/
def door : CloseoutDoorGeneration := context.waiting.door

/-- The census entry of the member. -/
def entry : CensusLeaf := context.waiting.entry

/-- What keeps the door from being projected at all. -/
def projectionBlockers : List String :=
  let identity := (context.door.taskDocumentRef, context.door.owningMasterTaskDocumentRef,
    context.door.contractPath) ≠
      (context.entry.leaf.ref, context.entry.master.ref, context.waiting.source.address)
  let stale := context.door.taskTopologyFingerprint ≠ context.facts.taskTopologyFingerprint
  let intentUnavailable := context.door.taskIntent = none
  let intentStale := ¬intentUnavailable ∧ context.door.taskIntent ≠ some context.facts.taskIntent
  let incomplete := context.entry.leaf.completionBlockers ≠ []
  let derived := [("door-canonical-identity-mismatch", decide identity),
    ("door-task-topology-stale", decide stale),
    ("door-task-intent-unavailable", decide intentUnavailable),
    ("door-task-intent-stale", decide intentStale),
    ("leaf-task-incomplete", decide incomplete)]
  context.facts.sourceBlockers ++ (derived.filter Prod.snd).map Prod.fst

/-- The node that schedules the candidate. -/
def node : Option SprintExecutionNode :=
  context.graph.bind fun graph =>
    graph.candidateNode context.entry.master.ref context.entry.leaf.ref

/-- The predecessors the member waits for. -/
def predecessorWaitingReasons : List String :=
  match context.graph with
  | none => []
  | some graph =>
    (graph.candidatePredecessors context.entry.master.ref context.entry.leaf.ref).map
      fun node => "predecessor-incomplete: " ++ predecessorLabel node

/-- The order of the node in front, when a node schedules the candidate. -/
def dependencyOrder : Nat :=
  match context.node with
  | some node => context.nodeOrder node * 1000 + context.entry.order % 1000
  | none => context.entry.order

/-- Everything the member waits for. -/
def waitingReasons : List String :=
  admissionWaitingReasons context.door.admissionProvenance ++ context.activationWaiting ++
    context.predecessorWaitingReasons

/-- Blocked before waiting before ready. -/
def classification : ProjectionMemberClassification :=
  if context.projectionBlockers ≠ [] then .blocked
  else if context.waitingReasons ≠ [] then .waiting
  else .ready

/-- The member a context projects to. -/
def projectionMember (fingerprint : CloseoutDoorGeneration → String) :
    CloseoutProjectionMember where
  generationId := context.door.generationId
  taskDocumentRef := context.door.taskDocumentRef
  owningMaster := context.door.owningMasterTaskDocumentRef
  contractPath := context.door.contractPath
  candidateTree := context.door.candidateTree
  sourceDoorFingerprint := fingerprint context.door
  classification := context.classification
  reasons := boundedReasons (context.projectionBlockers ++ context.waitingReasons)
  priority := context.door.priority
  order := context.dependencyOrder

end ProjectionMemberContext

/-! ## The sorted members -/

/-- Critical first. -/
def priorityRank : PriorityGrade → Nat
  | .critical => 0 | .high => 1 | .normal => 2 | .low => 3

/-- Ready first. -/
def classificationRank : ProjectionMemberClassification → Nat
  | .ready => 0 | .waiting => 1 | .blocked => 2

/-- `member_sort_key`: class, priority, place, then the key. -/
def memberSortKey (member : CloseoutProjectionMember) : Nat ×ₗ Nat ×ₗ Nat ×ₗ String :=
  toLex (classificationRank member.classification, toLex (priorityRank member.priority,
    toLex (member.order, member.taskDocumentRef.key)))

section capture
variable (reads : ProjectionReads) (sprint : SprintDocument)

/-- The context of a waiting door; its facts may not read. -/
def memberContext (graph : Option QueueGraphContext) (waiting : WaitingDoor) :
    Except ProjectionSourceProblem ProjectionMemberContext := do
  let facts ← reads.memberFacts waiting
  .ok { waiting := waiting
        graph := graph
        nodeOrder := fun node => (sprint.executionGraph.map fun g => declaration g node).getD 0
        facts := facts
        activationWaiting := reads.activationWaiting waiting.entry.master.ref }

/-- The contexts of the members, in the order of the census; a terminal sprint
has none. -/
def memberContexts : Except (List ProjectionSourceProblem) (List ProjectionMemberContext) :=
  match commandedSprintMasters reads sprint with
  | .error status =>
    .error [problem .task sprint.document.ref.key status "repair canonical task topology"]
  | .ok masters =>
    if !sprint.orchestrates then
      .error [problem .task sprint.document.ref.key "sprint-required"
        "address an orchestration sprint task document"]
    else
      let (problems, waiting) := doorCensus reads sprint masters
      let problems := problems ++ requireWaitingDoorIdentities sprint waiting
      if problems ≠ [] then .error (boundedSourceProblems problems sprint.document.ref)
      else if masterIsTerminal sprint.document then .ok []
      else
        match queueGraph reads sprint masters with
        | .error status =>
          .error [problem .task sprint.document.ref.key status
            "repair the canonical planning registers before rebuilding"]
        | .ok graph =>
          match waiting.mapM (memberContext reads sprint graph) with
          | .error refusal => .error [refusal]
          | .ok contexts => .ok contexts

/-- The members in the order of their keys. -/
def projectionMembers (contexts : List ProjectionMemberContext) :
    List CloseoutProjectionMember :=
  Ranked.sortBy memberSortKey (contexts.map fun c => c.projectionMember reads.doorFingerprint)

/-- `capture_projection_source`, every problem collected. -/
def captureProjectionSource : ProjectionSourceIdentity :=
  match memberContexts reads sprint with
  | .error problems => { fingerprint := none, problems := problems }
  | .ok contexts =>
    let members := projectionMembers reads contexts
    { fingerprint := some (reads.payloadFingerprint members)
      classification := if masterIsTerminal sprint.document then some .terminal else some .active
      members := members }

end capture

end AgentsRemember.Queue
