import Mathlib.Data.String.Basic
import Mathlib.Data.Prod.Lex
import AgentsRemember.Foundation.Canonical
import AgentsRemember.Foundation.Lines
import AgentsRemember.Queue.ExecutionGraph

/-!
# Scope — Records

The evidence of an incremental memory scope: the two tree differences and the
task observations of a candidate, the dependency snapshot that its owners gave,
and the manifest that is compiled of them. A digest is a parameter: it takes one
of the contents to a text.

The patterns of digests and of absolute roots and the least lengths of single
fields are left out.
-/

namespace AgentsRemember.Scope

open AgentsRemember.Queue (TaskDocumentRef)

/-- How a path changed. -/
inductive GitChangeStatus where
  | added | modified | deleted | renamed
deriving DecidableEq

/-- The status as the manifest has it. -/
def GitChangeStatus.name : GitChangeStatus → String
  | .added => "added"
  | .modified => "modified"
  | .deleted => "deleted"
  | .renamed => "renamed"

/-- The two trees. -/
inductive ScopeNamespace where
  | code | memory
deriving DecidableEq

/-- The tree as the manifest has it. -/
def ScopeNamespace.name : ScopeNamespace → String
  | .code => "code"
  | .memory => "memory"

/-- The classes of edges. -/
inductive EdgeClass where
  | sourceToFileSidecar
  | sourceToGoverningRoute
  | sourceToCitingMemoryDocument
  | sourceToEntityManifestation
  | routeIndexDependency
deriving DecidableEq

/-- The class as the manifest has it. -/
def EdgeClass.name : EdgeClass → String
  | .sourceToFileSidecar => "source-to-file-sidecar"
  | .sourceToGoverningRoute => "source-to-governing-route"
  | .sourceToCitingMemoryDocument => "source-to-citing-memory-document"
  | .sourceToEntityManifestation => "source-to-entity-manifestation"
  | .routeIndexDependency => "route-index-dependency"

/-- No two classes of edges go by one name. -/
theorem EdgeClass.name_injective : Function.Injective EdgeClass.name := by
  intro a b h
  cases a <;> cases b <;> first | rfl | simp [EdgeClass.name] at h

/-! ## Tree differences -/

-- by name, so that the test for membership below unfolds to one term everywhere
attribute [local instance] Lines.lawfulBEq

/-- A relative path of named segments. -/
def canonicalPath (value : String) : Bool :=
  value ≠ "" ∧ value.toList.head? ≠ some '/' ∧ '\\' ∉ value.toList ∧
    (value.toList.splitOn '/').all fun part => part ∉ [[], ['.'], ['.', '.']]

/-- Which of the paths and blobs of the two sides a change has. -/
def GitChangeStatus.shape : GitChangeStatus → Bool × Bool × Bool × Bool
  | .added => (false, true, false, true)
  | .modified => (true, true, true, true)
  | .deleted => (true, false, true, false)
  | .renamed => (true, true, true, true)

/-- A changed path; its cells go with its status. -/
structure GitPathChange where
  status : GitChangeStatus
  oldPath : Option String := none
  newPath : Option String := none
  oldBlob : Option String := none
  newBlob : Option String := none
  canonical : (oldPath.all canonicalPath && newPath.all canonicalPath) = true
  shaped : (oldPath.isSome, newPath.isSome, oldBlob.isSome, newBlob.isSome) = status.shape
  retained : status = .modified → oldPath = newPath
  moved : status = .renamed → oldPath ≠ newPath
deriving DecidableEq

/-- The paths of the old and of the new side. -/
def GitPathChange.sides (change : GitPathChange) : List String :=
  change.oldPath.toList ++ change.newPath.toList

/-- The old path, then the new one. -/
def GitPathChange.paths (change : GitPathChange) : String ×ₗ String :=
  toLex (change.oldPath.getD "", change.newPath.getD "")

/-- The order of the changes. -/
def GitPathChange.key (change : GitPathChange) : String ×ₗ String ×ₗ String :=
  toLex (change.oldPath.getD "", toLex (change.newPath.getD "", change.status.name))

/-- The difference of two trees, in canonical order. -/
structure GitTreeDelta where
  namespace_ : ScopeNamespace
  root : String
  baseTree : String
  candidateTree : String
  changes : List GitPathChange
  canonical : Canonical.IsCanonical GitPathChange.key GitPathChange.key changes
deriving DecidableEq

/-! ## Candidates -/

/-- The code and memory worktrees that belong together. -/
structure MemoryCandidatePairIdentity where
  repoId : String
  contractPath : String
  contractDigest : String
  codeRoot : String
  memoryRoot : String
  codeSourceBranch : String
  codeWorkBranch : String
  codeBaseCommit : String
  memorySourceBranch : String
  memoryWorkBranch : String
  memoryBaseCommit : String
  onboardingRoot : String
  ledgerPath : String
deriving DecidableEq

/-- The intent of a task, or that there is none. -/
inductive TaskIntentState where
  | identity (digest : String)
  | missing
deriving DecidableEq

/-- A task document as its owner reads it. -/
structure CanonicalTaskObservation where
  taskRoot : String
  taskDocumentRef : TaskDocumentRef
  sourceDigest : String
  sourceAuthorityNamespace : String
  sourceValidatorVersion : String
  semanticTopologyDigest : Option String
  taskIntent : Option TaskIntentState
deriving DecidableEq

/-- The task before and after. -/
structure TaskObservationPair where
  base : Option CanonicalTaskObservation
  candidate : Option CanonicalTaskObservation
deriving DecidableEq

/-- The pair, its two deltas and its task; the deltas are those of the pair's roots. -/
structure ScopeCandidateIdentity where
  pairIdentity : MemoryCandidatePairIdentity
  code : GitTreeDelta
  memory : GitTreeDelta
  task : TaskObservationPair
  namespaces : code.namespace_ = .code ∧ memory.namespace_ = .memory
  roots : code.root = pairIdentity.codeRoot ∧ memory.root = pairIdentity.memoryRoot
  codeStill : code.baseTree = code.candidateTree → code.changes = []
  memoryStill : memory.baseTree = memory.candidateTree → memory.changes = []
deriving DecidableEq

/-! ## Dependencies -/

/-- Reasons are given, not blank, sorted, and each once. -/
def canonicalReasons (reasons : List String) : Bool :=
  reasons ≠ [] ∧ reasons.IsChain (· < ·) ∧ reasons.all fun reason => !Lines.blank reason.toList

/-- A path of one of the trees, or one of the two task identities. -/
def canonicalNodeId (value : String) : Bool :=
  value = "task:normative-intent" ∨ value = "task:semantic-topology" ∨
    [ScopeNamespace.code, .memory].any fun tree =>
      let head := tree.name.toList ++ [':']
      head.isPrefixOf value.toList &&
        canonicalPath (String.ofList (value.toList.drop head.length))

/-- One node of the dependency snapshot. -/
structure ScopeNode where
  nodeId : String
  contentDigest : String
  authorityNamespace : String
  validatorVersion : String
  reasons : List String
  addressed : canonicalNodeId nodeId = true
  reasoned : canonicalReasons reasons = true
deriving DecidableEq

/-- One edge of the dependency snapshot. -/
structure ScopeEdge where
  source : String
  target : String
  edgeClass : EdgeClass
  contentDigest : String
  authorityNamespace : String
  extractorVersion : String
  validatorVersion : String
  reasons : List String
  reasoned : canonicalReasons reasons = true
deriving DecidableEq

/-- The order of the edges. -/
def ScopeEdge.key (edge : ScopeEdge) : String ×ₗ String ×ₗ String :=
  toLex (edge.source, toLex (edge.target, edge.edgeClass.name))

/-- What is stated of a class of edges. -/
structure EdgeClassEvidence where
  edgeClass : EdgeClass
  authorityNamespace : String
  extractorVersion : String
  validatorVersion : String
  observedEdgeCount : Nat
  evidenceDigest : String
deriving DecidableEq

/-- The index the sources were read from. -/
structure SourceIndexObservation where
  snapshotId : String
  codeRoot : String
  memoryRoot : String
  candidateDigest : String

/-- A snapshot without its own digest. -/
structure SnapshotPayload where
  candidateDigest : String
  sourceIndex : SourceIndexObservation
  nodes : List ScopeNode
  edges : List ScopeEdge
  edgeEvidence : List EdgeClassEvidence

/-- A snapshot under its digest. -/
structure DependencySnapshot extends SnapshotPayload where
  snapshotDigest : String

/-! ## Manifests -/

/-- What a checker may be run on. -/
inductive CheckerMode where
  | incremental | fullOnly
deriving DecidableEq

/-- How a checker may be run. -/
structure CheckerScopePolicy where
  checker : String
  mode : CheckerMode
  extractorVersion : Option String := none
  edgeClasses : List EdgeClass := []
  reason : String

/-- A manifest without its own digest. -/
@[ext]
structure ManifestPayload where
  candidateDigest : String
  checkerRegistryVersion : String
  sourceIndex : SourceIndexObservation
  changedRoots : List String
  selectedNodes : List ScopeNode
  selectedEdges : List ScopeEdge
  checkerPolicies : List CheckerScopePolicy
  fullOnlyCheckers : List String
  incrementalReady : Bool

/-- A manifest under its digest. -/
structure ScopeManifest extends ManifestPayload where
  manifestDigest : String

/-! ## Digests and refusals -/

/-- An edge without its own digest. -/
structure EdgePayload where
  source : String
  target : String
  edgeClass : EdgeClass
  authorityNamespace : String
  extractorVersion : String
  validatorVersion : String
  reasons : List String

/-- What the digest of an edge covers. -/
def ScopeEdge.payload (edge : ScopeEdge) : EdgePayload :=
  ⟨edge.source, edge.target, edge.edgeClass, edge.authorityNamespace, edge.extractorVersion,
    edge.validatorVersion, edge.reasons⟩

/-- The contents that are digested. -/
inductive Content where
  | candidate (identity : ScopeCandidateIdentity)
  | edge (payload : EdgePayload)
  | edges (edges : List ScopeEdge)
  | snapshot (payload : SnapshotPayload)
  | registry (policies : List CheckerScopePolicy)
  | manifest (payload : ManifestPayload)

/-- What a failure says: a text, or one with the names of checkers in it. -/
inductive Detail where
  | text (detail : String)
  | unknownCheckers (unknown : List String)
  | incompleteRegistry (missing stale : List String)

/-- A refusal, with what it is about. -/
structure ScopeFailure where
  code : String
  detail : Detail
  checker : Option String := none
  node : Option String := none
  edgeClass : Option EdgeClass := none
  snapshot : Option String := none
  candidate : Option String := none
  owner : Option String := none

/-- A compilation stops unproven, at a value that is refused, or at a fault of its own. -/
inductive ScopeError where
  | unproven (failure : ScopeFailure)
  | value (message : Detail)
  | assertion
  | key (node : String)

end AgentsRemember.Scope
