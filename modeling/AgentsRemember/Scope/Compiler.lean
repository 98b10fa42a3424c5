import AgentsRemember.Foundation.Checks
import AgentsRemember.Foundation.Worklist
import AgentsRemember.Scope.Records

/-!
# Scope — Compiler

The compiler of a scope manifest. A candidate is observed, its dependencies are
acquired and validated, the closure of its changed roots is taken, and the
candidate is observed once more. Whatever is not proved refuses.
-/

namespace AgentsRemember.Scope

open Checks

/-- Stop with the evidence of a failure. -/
def refusal (code detail : String) (checker node : Option String := none)
    (edgeClass : Option EdgeClass := none) (snapshot candidate owner : Option String := none) :
    ScopeError :=
  .unproven ⟨code, .text detail, checker, node, edgeClass, snapshot, candidate, owner⟩

/-! ## The registry -/

/-- Who owns a class of edges, in which versions. -/
structure EdgeOwnerContract where
  authorityNamespace : String
  extractorVersion : String
  validatorVersion : String

/-- The one owner that may emit an edge class. -/
def EdgeClass.contract : EdgeClass → EdgeOwnerContract
  | .sourceToFileSidecar =>
    ⟨"agents-remember.sidecar-pairing", "sidecar-pairing/v1", "sidecar-path-confinement/v1"⟩
  | .sourceToGoverningRoute =>
    ⟨"agents-remember.route-index", "route-index-governing-chain/v1", "route-index/v1"⟩
  | .sourceToCitingMemoryDocument =>
    ⟨"agents-remember.citation-model", "citation-source-reference/v1", "citation-source-index/v8"⟩
  | .sourceToEntityManifestation =>
    ⟨"agents-remember.entity-catalog", "entity-fingerprint-evidence-path/v1",
      "entity-catalog-fingerprint/v1"⟩
  | .routeIndexDependency =>
    ⟨"agents-remember.route-index", "route-index-input/v1", "route-index/v1"⟩

/-- The classes that have an owner. -/
def edgeOwnerContracts : List EdgeClass :=
  [.sourceToFileSidecar, .sourceToGoverningRoute, .sourceToCitingMemoryDocument,
    .sourceToEntityManifestation, .routeIndexDependency]

/-- Every class of edges has an owner. -/
theorem mem_edgeOwnerContracts (edgeClass : EdgeClass) : edgeClass ∈ edgeOwnerContracts := by
  cases edgeClass <;> simp [edgeOwnerContracts]

/-- The policies of the checkers. -/
def checkerPolicies : List CheckerScopePolicy :=
  [⟨"integrity.onboarding_drift_check.summary", .fullOnly, none, [],
      "the drift summary owns whole onboarding, inline, entity, and Git-history observation; " ++
        "no complete selected runner exists"⟩,
    ⟨"style.citations.claim_reopen", .fullOnly, none, [],
      "claim reopening observes tree-wide provenance and dependency changes; no complete " ++
        "selected runner exists"⟩,
    ⟨"style.document_shape.diff_markers", .fullOnly, none, [],
      "the document-shape checker exposes only a whole-onboarding runner"⟩,
    ⟨"style.document_shape.entity_catalog_alignment", .fullOnly, none, [],
      "the checker validates the single repository-wide entity catalog as a whole"⟩,
    ⟨"style.update_history.history_order", .fullOnly, none, [],
      "the history checker exposes only a whole-onboarding runner"⟩,
    ⟨"style.citations.range_resolution", .incremental,
      some "citation-range-selected-documents/v1", edgeOwnerContracts,
      "the checker accepts one confined document with one exact frozen citation-source " ++
        "index generation"⟩,
    ⟨"style.document_shape.tables", .fullOnly, none, [],
      "the table-shape checker exposes only a whole-onboarding runner"⟩]

/-- The checkers there are. -/
def availableChecks : List String :=
  ["integrity.onboarding_drift_check.summary", "style.citations.claim_reopen",
    "style.document_shape.diff_markers", "style.document_shape.entity_catalog_alignment",
    "style.update_history.history_order", "style.citations.range_resolution",
    "style.document_shape.tables"]

/-- The names of a set, in order. -/
def sortedSet (names : List String) : List String := Canonical.sorted id names.dedup

/-- Every checker has one policy. -/
def checkerScopeRegistry : Except ScopeError (List CheckerScopePolicy) := do
  let policies := Canonical.sorted CheckerScopePolicy.checker checkerPolicies
  let declared := policies.map CheckerScopePolicy.checker
  let missing := availableChecks.filter fun name => name ∉ declared
  let stale := declared.filter fun name => name ∉ availableChecks
  refuseIf (missing ≠ [] ∨ stale ≠ [])
    (.value (.incompleteRegistry (sortedSet missing) (sortedSet stale)))
  inOrder (policies.flatMap fun policy =>
    [refuseIf (policy.mode = .incremental ∧
        (policy.extractorVersion = none ∨ policy.edgeClasses = []))
      (.value (.text ("incremental checker " ++ policy.checker ++ " lacks an executable policy"))),
    refuseIf (policy.mode = .fullOnly ∧
        (policy.extractorVersion ≠ none ∨ policy.edgeClasses ≠ []))
      (.value (.text ("full-only checker " ++ policy.checker ++ " claims incremental semantics")))])
  return policies

/-- The policies of the requested checkers. -/
def selectedPolicies (checkers : List String) : Except ScopeError (List CheckerScopePolicy) := do
  let requested := sortedSet checkers
  refuseIf (requested = [])
    (refusal "checker-population-empty" "an empty checker selection cannot certify scope")
  let registry ← checkerScopeRegistry
  let policies := Keyed.dict (registry.map fun policy => (policy.checker, policy))
  match sortedSet (requested.filter fun name => name ∉ policies.map Prod.fst) with
  | [] => requested.mapM fun name =>
    match policies.lookup name with
    | some policy => .ok policy
    | none => .error (.key name)
  | name :: unknown =>
    .error (.unproven { code := "checker-unknown", detail := .unknownCheckers (name :: unknown)
                        checker := some name })

/-! ## Candidates -/

/-- The difference of two trees, of the changes in the order that Git gave them. -/
def observeGitTreeDelta (namespace_ : ScopeNamespace) (root baseTree candidateTree : String)
    (changes : List GitPathChange) : Except ScopeError GitTreeDelta :=
  let changes := Canonical.sorted GitPathChange.paths changes
  if h : Canonical.sorted GitPathChange.key changes = changes then
    if hunique : (changes.map GitPathChange.key).Nodup then
      .ok ⟨namespace_, root, baseTree, candidateTree, changes, h, hunique⟩
    else .error (.value (.text "Git changes must be unique"))
  else .error (.value (.text "Git changes must be deterministically sorted"))

/-- The paths of both sides of every change, under the name of the tree. -/
def GitTreeDelta.roots (delta : GitTreeDelta) : List String :=
  delta.changes.flatMap fun change => change.sides.map (delta.namespace_.name ++ ":" ++ ·)

/-- The text in front of the last mark; the whole one when there is none. -/
def beforeLast (mark : List Char) : List Char → Option (List Char)
  | [] => none
  | c :: rest =>
    match beforeLast mark rest with
    | some front => some (c :: front)
    | none => if mark.isPrefixOf (c :: rest) then some [] else none

/-- The task root a contract lies under. -/
def contractTaskRoot (contractPath : String) : String :=
  String.ofList ((beforeLast "/enclosures/".toList contractPath.toList).getD contractPath.toList)

/-- An observation that is there and current. -/
def validateObservation (side : String) (observation : Option CanonicalTaskObservation) :
    Except ScopeError CanonicalTaskObservation := do
  match observation with
  | none => .error (refusal ("task-" ++ side ++ "-unavailable")
      ("canonical " ++ side ++ " task observation is missing"))
  | some observation =>
    refuseIf (observation.semanticTopologyDigest = none)
      (refusal ("task-" ++ side ++ "-topology-unavailable")
        ("canonical R01 " ++ side ++ " topology identity is unavailable"))
    match observation.taskIntent with
    | some (.identity _) => return observation
    | _ => .error (refusal ("task-" ++ side ++ "-intent-unavailable")
        ("canonical R02 " ++ side ++ " task intent is unavailable"))

/-- The candidate's sides belong together. -/
def validateCandidate (candidate : ScopeCandidateIdentity) : Except ScopeError Unit := do
  let base ← validateObservation "base" candidate.task.base
  let current ← validateObservation "candidate" candidate.task.candidate
  inOrder
    [refuseIf (base.taskRoot ≠ current.taskRoot)
      (refusal "task-root-ambiguous" "base and candidate task observations use different roots"),
    refuseIf (current.taskRoot ≠ contractTaskRoot candidate.pairIdentity.contractPath)
      (refusal "task-root-pair-mismatch" "task observation root differs from contract task root")]

/-- The nodes of the task. -/
def taskNodes (candidate : ScopeCandidateIdentity) : Except ScopeError (List ScopeNode) :=
  match candidate.task.candidate with
  | some { semanticTopologyDigest := some topology, taskIntent := some (.identity intent), .. } =>
    .ok
      [{ nodeId := "task:normative-intent"
         contentDigest := intent
         authorityNamespace := "agents-remember.task-intent"
         validatorVersion := "task-intent/v1"
         reasons := ["canonical R02 candidate observation"]
         addressed := by decide
         reasoned := by decide },
      { nodeId := "task:semantic-topology"
        contentDigest := topology
        authorityNamespace := "agents-remember.semantic-topology"
        validatorVersion := "semantic-topology/v2"
        reasons := ["canonical R01 candidate observation"]
        addressed := by decide
        reasoned := by decide }]
  | _ => .error .assertion

/-- What differs between base and candidate. -/
def changedRoots (candidate : ScopeCandidateIdentity) : Except ScopeError (List String) :=
  match candidate.task.base, candidate.task.candidate with
  | some base, some current =>
    .ok (sortedSet (candidate.code.roots ++ candidate.memory.roots ++
      (if base.semanticTopologyDigest ≠ current.semanticTopologyDigest
        then ["task:semantic-topology"] else []) ++
      (if base.taskIntent ≠ current.taskIntent then ["task:normative-intent"] else [])))
  | _, _ => .error .assertion

/-! ## Snapshots -/

section digests
variable (contentDigest : Content → String)

/-- The digest of a candidate. -/
def ScopeCandidateIdentity.digest (candidate : ScopeCandidateIdentity) : String :=
  contentDigest (.candidate candidate)

/-- The edges of one class, counted and digested. -/
def edgeEvidence (edgeClass : EdgeClass) (edges : List ScopeEdge) : EdgeClassEvidence :=
  let classEdges := edges.filter fun edge => edge.edgeClass = edgeClass
  ⟨edgeClass, edgeClass.contract.authorityNamespace, edgeClass.contract.extractorVersion,
    edgeClass.contract.validatorVersion, classEdges.length, contentDigest (.edges classEdges)⟩

/-- The snapshot of nodes and edges in canonical order. -/
def buildDependencySnapshot (candidate : ScopeCandidateIdentity)
    (sourceIndex : SourceIndexObservation) (nodes : List ScopeNode) (edges : List ScopeEdge) :
    DependencySnapshot :=
  let orderedNodes := Canonical.sorted ScopeNode.nodeId nodes
  let orderedEdges := Canonical.sorted ScopeEdge.key edges
  let payload : SnapshotPayload :=
    ⟨candidate.digest contentDigest, sourceIndex, orderedNodes, orderedEdges,
      edgeOwnerContracts.map fun edgeClass => edgeEvidence contentDigest edgeClass orderedEdges⟩
  ⟨payload, contentDigest (.snapshot payload)⟩

/-- An edge under the contract of its class. -/
def dependencyEdge (source target : String) (edgeClass : EdgeClass)
    (reasons : { reasons : List String // canonicalReasons reasons = true }) : ScopeEdge :=
  let contract := edgeClass.contract
  let payload : EdgePayload := ⟨source, target, edgeClass, contract.authorityNamespace,
    contract.extractorVersion, contract.validatorVersion, reasons⟩
  { source, target, edgeClass
    contentDigest := contentDigest (.edge payload)
    authorityNamespace := contract.authorityNamespace
    extractorVersion := contract.extractorVersion
    validatorVersion := contract.validatorVersion
    reasons := reasons.1
    reasoned := reasons.2 }

/-- The keys are in order, and each is there once. -/
def requireSortedUnique {α β : Type} [LinearOrder β] (values : List α) (key : α → β)
    (label : String) : Except ScopeError Unit :=
  refuseIf (¬Canonical.IsCanonical id id (values.map key))
    (refusal ("dependency-" ++ label ++ "-noncanonical")
      ("dependency " ++ label ++ " are not sorted and unique"))

/-- The edge states its owner's contract and digest. -/
def validateEdge (edgeClass : EdgeClass) (edge : ScopeEdge) : Except ScopeError Unit :=
  let contract := edgeClass.contract
  refuseIf (edge.authorityNamespace ≠ contract.authorityNamespace ∨
      edge.extractorVersion ≠ contract.extractorVersion ∨
      edge.validatorVersion ≠ contract.validatorVersion ∨
      contentDigest (.edge edge.payload) ≠ edge.contentDigest)
    (refusal "dependency-edge-invalid"
      "dependency edge is fabricated, stale, or from the wrong owner" none none (some edgeClass)
      none none (some edge.authorityNamespace))

/-- Every class is proved by its edges. -/
def validateEdges (snapshot : DependencySnapshot) : Except ScopeError Unit := do
  let evidence := Keyed.dict (snapshot.edgeEvidence.map fun one => (one.edgeClass, one))
  refuseIf ((∃ one ∈ edgeOwnerContracts, one ∉ evidence.map Prod.fst) ∨
      evidence.length ≠ snapshot.edgeEvidence.length)
    (refusal "edge-class-incomplete" "dependency snapshot lacks one exact edge-class proof")
  edgeOwnerContracts.forM fun edgeClass => do
    match evidence.lookup edgeClass with
    | none => .error (.key edgeClass.name)
    | some observed =>
      refuseIf (observed ≠ edgeEvidence contentDigest edgeClass snapshot.edges)
        (refusal "edge-class-owner-invalid"
          "edge-class evidence differs from its canonical owner contract" none none
          (some edgeClass) none none (some observed.authorityNamespace))
      (snapshot.edges.filter fun edge => edge.edgeClass = edgeClass).forM
        (validateEdge contentDigest edgeClass)

/-- The snapshot is of this candidate and digests to itself. -/
def validateSnapshot (candidate : ScopeCandidateIdentity) (snapshot : DependencySnapshot) :
    Except ScopeError Unit := do
  let index := snapshot.sourceIndex
  refuseIf (snapshot.candidateDigest ≠ candidate.digest contentDigest)
    (refusal "dependency-snapshot-candidate-mismatch"
      "dependency snapshot belongs to another candidate" none none none
      (some snapshot.snapshotDigest) (some (candidate.digest contentDigest)))
  refuseIf (index.candidateDigest ≠ candidate.digest contentDigest ∨
      index.codeRoot ≠ candidate.code.root ∨ index.memoryRoot ≠ candidate.memory.root)
    (refusal "source-index-candidate-mismatch"
      "citation source index is not bound to the exact candidate roots" none none none
      (some index.snapshotId))
  requireSortedUnique snapshot.nodes ScopeNode.nodeId "nodes"
  requireSortedUnique snapshot.edges ScopeEdge.key "edges"
  validateEdges contentDigest snapshot
  refuseIf (contentDigest (.snapshot snapshot.toSnapshotPayload) ≠ snapshot.snapshotDigest)
    (refusal "dependency-snapshot-digest-invalid" "dependency snapshot bytes do not self-verify")

end digests

/-! ## The closure -/

/-- The nodes by their id. -/
abbrev Nodes := List (String × ScopeNode)

/-- A canonical task node goes to the nodes of a snapshot, which may not replace it. -/
def addTaskNode (nodes : Nodes) (node : ScopeNode) : Except ScopeError Nodes :=
  Canonical.enter ScopeNode.nodeId
    (fun node => refusal "task-node-private-authority" "snapshot replaced a canonical task node"
      none (some node.nodeId)) nodes node

/-- The authority a root comes from. -/
def rootAuthority (root : String) (node : ScopeNode) : String :=
  if "code:".toList.isPrefixOf root.toList then "agents-remember.git-code-tree"
  else if "memory:".toList.isPrefixOf root.toList then "agents-remember.git-memory-tree"
  else node.authorityNamespace

/-- Every root has a node of its authority. -/
def validateRoots (roots : List String) (nodes : Nodes) : Except ScopeError Unit :=
  roots.forM fun root =>
    match nodes.lookup root with
    | none => .error (refusal "changed-root-unclassified" "changed root has no owner node" none
        (some root))
    | some node => refuseIf (node.authorityNamespace ≠ rootAuthority root node)
        (refusal "changed-root-private-authority"
          "changed root was not emitted by its canonical authority" none (some root) none none none
          (some node.authorityNamespace))

/-- The edges that leave a node. -/
def outgoing (edges : List ScopeEdge) (source : String) : List ScopeEdge :=
  ((Keyed.grouped (edges.map fun edge => (edge.source, edge))).lookup source).getD []

/-- The closure of the roots along the edges. -/
def reverseClosure (roots : List String) (nodes : Nodes) (edges : List ScopeEdge) :
    Except ScopeError (List String × List ScopeEdge) := do
  edges.forM fun edge =>
    refuseIf (edge.source ∉ nodes.map Prod.fst ∨ edge.target ∉ nodes.map Prod.fst)
      (refusal "dependency-edge-endpoint-missing" "dependency edge refers to an absent node" none
        (some (if edge.source ∉ nodes.map Prod.fst then edge.source else edge.target))
        (some edge.edgeClass))
  let swept := Worklist.closure (outgoing edges) ScopeEdge.target roots edges
  return (swept.selected, swept.passed)

/-! ## The manifest -/

section manifests
variable (contentDigest : Content → String)

/-- The digest of the checker registry. -/
def checkerRegistryVersion : Except ScopeError String := do
  return contentDigest (.registry (← checkerScopeRegistry))

/-- The candidate, observed before and after its dependencies are acquired. -/
structure ScopeAuthority where
  observe : Except ScopeError ScopeCandidateIdentity
  observeAgain : Except ScopeError ScopeCandidateIdentity

/-- Where dependencies are acquired. -/
abbrev DependencySnapshotAuthority := ScopeCandidateIdentity → Except ScopeError DependencySnapshot

/-- `compile_scope_manifest`: observe, acquire, close, observe again. -/
def compileScopeManifest (authority : ScopeAuthority) (dependencies : DependencySnapshotAuthority)
    (checkers : List String) : Except ScopeError ScopeManifest := do
  let candidate ← authority.observe
  let snapshot ← dependencies candidate
  let policies ← selectedPolicies checkers
  validateCandidate candidate
  validateSnapshot contentDigest candidate snapshot
  let nodes ← (← taskNodes candidate).foldlM addTaskNode
    (Keyed.dict (snapshot.nodes.map fun node => (node.nodeId, node)))
  let roots ← changedRoots candidate
  validateRoots roots nodes
  let (selectedIds, selectedEdges) ← reverseClosure roots nodes snapshot.edges
  -- observed again: nothing may have moved while the closure was taken
  let current ← authority.observeAgain
  refuseIf (current ≠ candidate)
    (refusal "candidate-moved-during-compilation"
      "code, memory, task, or pair authority changed during scope compilation" none none none none
      (some (candidate.digest contentDigest)))
  let selectedNodes ← (Canonical.sorted id selectedIds).mapM fun nodeId =>
    match nodes.lookup nodeId with
    | some node => .ok node
    | none => .error (.key nodeId)
  let fullOnly := Canonical.sorted id
    ((policies.filter fun policy => policy.mode = .fullOnly).map CheckerScopePolicy.checker)
  let payload : ManifestPayload :=
    { candidateDigest := candidate.digest contentDigest
      checkerRegistryVersion := ← checkerRegistryVersion contentDigest
      sourceIndex := snapshot.sourceIndex
      changedRoots := roots
      selectedNodes
      selectedEdges := Canonical.sorted ScopeEdge.key selectedEdges
      checkerPolicies := policies
      fullOnlyCheckers := fullOnly
      incrementalReady := fullOnly = [] }
  return ⟨payload, contentDigest (.manifest payload)⟩

end manifests

end AgentsRemember.Scope
