import Mathlib.Data.List.Dedup
import AgentsRemember.Scope.Compiler

/-!
# Scope — Closure

What an accepted compilation selects: the changed roots of the candidate and
everything that the edges of the snapshot reach from them, with the edges that
leave a selected node, and nothing else. More changes select more, and the order
in which anything was supplied does not show.
-/

namespace AgentsRemember.Scope

open Checks

variable {contentDigest : Content → String}

/-! ## Vocabulary -/

/-- A path of either side of a change of either tree, or a task identity that differs. -/
inductive ChangedRoot (candidate : ScopeCandidateIdentity) : String → Prop where
  | code {change : GitPathChange} {path : String} (hchange : change ∈ candidate.code.changes)
      (hpath : change.oldPath = some path ∨ change.newPath = some path) :
      ChangedRoot candidate ("code:" ++ path)
  | memory {change : GitPathChange} {path : String} (hchange : change ∈ candidate.memory.changes)
      (hpath : change.oldPath = some path ∨ change.newPath = some path) :
      ChangedRoot candidate ("memory:" ++ path)
  | topology (h : candidate.task.base.map CanonicalTaskObservation.semanticTopologyDigest ≠
      candidate.task.candidate.map CanonicalTaskObservation.semanticTopologyDigest) :
      ChangedRoot candidate "task:semantic-topology"
  | intent (h : candidate.task.base.map CanonicalTaskObservation.taskIntent ≠
      candidate.task.candidate.map CanonicalTaskObservation.taskIntent) :
      ChangedRoot candidate "task:normative-intent"

/-- The second node is the target of an edge of the first. -/
def Dependent (snapshot : DependencySnapshot) (source target : String) : Prop :=
  ∃ edge ∈ snapshot.edges, edge.source = source ∧ edge.target = target

/-- Reached from a changed root along the edges. -/
def Affected (candidate : ScopeCandidateIdentity) (snapshot : DependencySnapshot)
    (nodeId : String) : Prop :=
  ∃ root, ChangedRoot candidate root ∧ Relation.ReflTransGen (Dependent snapshot) root nodeId

/-- Sets with the changed roots that go along with the edges. -/
def ClosedScopes (candidate : ScopeCandidateIdentity) (snapshot : DependencySnapshot) :
    Set (Set String) :=
  { S | (∀ root, ChangedRoot candidate root → root ∈ S) ∧
    ∀ edge ∈ snapshot.edges, edge.source ∈ S → edge.target ∈ S }

/-- The ids of the selected nodes. -/
def ScopeManifest.selectedIds (manifest : ScopeManifest) : List String :=
  manifest.selectedNodes.map ScopeNode.nodeId

/-- The scope of a candidate, exactly: every list in its order, and nothing twice. -/
structure ExactScope (candidate : ScopeCandidateIdentity) (snapshot : DependencySnapshot)
    (manifest : ScopeManifest) : Prop where
  roots : ∀ root, root ∈ manifest.changedRoots ↔ ChangedRoot candidate root
  ids : ∀ nodeId, nodeId ∈ manifest.selectedIds ↔ Affected candidate snapshot nodeId
  nodes : ∀ node ∈ manifest.selectedNodes,
    node ∈ snapshot.nodes ∨ ∃ tasks, taskNodes candidate = .ok tasks ∧ node ∈ tasks
  edges : ∀ edge, edge ∈ manifest.selectedEdges ↔
    edge ∈ snapshot.edges ∧ edge.source ∈ manifest.selectedIds
  least : IsLeast (ClosedScopes candidate snapshot) { nodeId | nodeId ∈ manifest.selectedIds }
  ordered : manifest.changedRoots.Pairwise (· < ·) ∧ manifest.selectedIds.Pairwise (· < ·) ∧
    manifest.selectedEdges.Pairwise fun a b => a.key < b.key

/-- Whatever changed for one candidate changed for the other. -/
structure MoreChanges (candidate more : ScopeCandidateIdentity) : Prop where
  code : candidate.code.changes ⊆ more.code.changes
  memory : candidate.memory.changes ⊆ more.memory.changes
  topology : ChangedRoot candidate "task:semantic-topology" →
    ChangedRoot more "task:semantic-topology"
  intent : ChangedRoot candidate "task:normative-intent" →
    ChangedRoot more "task:normative-intent"

/-- The same candidate, but for the order of the changes. -/
structure Reordered (candidate other : ScopeCandidateIdentity) : Prop where
  pair : candidate.pairIdentity = other.pairIdentity
  code : candidate.code.baseTree = other.code.baseTree ∧
    candidate.code.candidateTree = other.code.candidateTree ∧
    candidate.code.changes.Perm other.code.changes
  memory : candidate.memory.baseTree = other.memory.baseTree ∧
    candidate.memory.candidateTree = other.memory.candidateTree ∧
    candidate.memory.changes.Perm other.memory.changes
  task : candidate.task = other.task

/-! ## Sets in order -/

theorem mem_sortedSet {names : List String} {name : String} :
    name ∈ sortedSet names ↔ name ∈ names := by
  rw [sortedSet, Canonical.mem_sorted, List.mem_dedup]

theorem sorted_nodup_lt {α β : Type} [LinearOrder β] {key : α → β} {xs : List α}
    (h : (xs.map key).Nodup) : (Canonical.sorted key xs).Pairwise fun a b => key a < key b := by
  have hnodup : ((Canonical.sorted key xs).map key).Nodup :=
    ((Canonical.sorted_perm xs).map key).nodup_iff.mpr h
  have hle : (Canonical.sorted key xs).Pairwise fun a b => key a ≤ key b :=
    Canonical.sorted_pairwise xs
  exact (hle.and (List.pairwise_map.mp hnodup)).imp fun hab => lt_of_le_of_ne hab.1 hab.2

/-- Keys in strict order leave one order only. -/
theorem eq_of_perm_of_lt {α β : Type} [LinearOrder β] {key : α → β} {xs ys : List α}
    (hxs : xs.Pairwise fun a b => key a < key b) (hys : ys.Pairwise fun a b => key a < key b)
    (hperm : xs.Perm ys) : xs = ys := by
  refine hperm.eq_of_pairwise ?_ hxs hys
  intro a b _ _ hab hba
  exact absurd hab hba.asymm

theorem sorted_congr {α β : Type} [LinearOrder β] {key : α → β} {xs ys : List α}
    (h : (xs.map key).Nodup) (hperm : xs.Perm ys) :
    Canonical.sorted key xs = Canonical.sorted key ys := by
  have h' : (ys.map key).Nodup := (hperm.map key).nodup_iff.mp h
  apply eq_of_perm_of_lt (sorted_nodup_lt h) (sorted_nodup_lt h')
  exact (Canonical.sorted_perm xs).trans (hperm.trans (Canonical.sorted_perm ys).symm)

/-- What is in strict order once sorted has each key once. -/
theorem nodup_of_sorted_lt {α β : Type} [LinearOrder β] {key : α → β} {xs : List α}
    (h : (Canonical.sorted key xs).Pairwise fun a b => key a < key b) : (xs.map key).Nodup :=
  ((Canonical.sorted_perm xs).map key).nodup_iff.mp (List.pairwise_map.mpr (h.imp ne_of_lt))

theorem sortedSet_lt (names : List String) : (sortedSet names).Pairwise (· < ·) :=
  sorted_nodup_lt (by simpa using names.nodup_dedup)

/-- A set in order is told by its members. -/
theorem sortedSet_congr {names others : List String} (h : ∀ name, name ∈ names ↔ name ∈ others) :
    sortedSet names = sortedSet others := by
  apply sorted_congr (by simpa using names.nodup_dedup)
  refine (List.perm_ext_iff_of_nodup names.nodup_dedup others.nodup_dedup).mpr ?_
  intro name
  rw [List.mem_dedup, List.mem_dedup, h]

theorem requireSortedUnique_eq_ok {α β : Type} [LinearOrder β] {key : α → β} {xs : List α}
    {label : String} :
    requireSortedUnique xs key label = .ok () ↔ xs.Pairwise fun a b => key a < key b := by
  simp only [requireSortedUnique, refuseIf_ok, not_not]
  rw [Canonical.IsCanonical, Canonical.sorted_eq_iff, List.map_id, List.Nodup,
    ← List.pairwise_and_iff, List.pairwise_map]
  simp only [id, ← lt_iff_le_and_ne]

/-! ## Roots and edges -/

theorem GitTreeDelta.mem_roots {delta : GitTreeDelta} {root : String} :
    root ∈ delta.roots ↔ ∃ change ∈ delta.changes, ∃ path,
      (change.oldPath = some path ∨ change.newPath = some path) ∧
        root = delta.namespace_.name ++ ":" ++ path := by
  unfold GitTreeDelta.roots
  simp only [List.mem_flatMap, List.mem_map, GitPathChange.sides, List.mem_append,
    Option.mem_toList, eq_comm (a := root)]

theorem mem_changedRoots {candidate : ScopeCandidateIdentity} {roots : List String}
    (h : changedRoots candidate = .ok roots) {root : String} :
    root ∈ roots ↔ ChangedRoot candidate root := by
  unfold changedRoots at h
  split at h
  · rename_i base current hbase hcurrent
    cases h
    obtain ⟨hcode, hmemory⟩ := candidate.namespaces
    simp only [mem_sortedSet, List.mem_append, GitTreeDelta.mem_roots, hcode, hmemory]
    constructor
    · rintro (((⟨change, hchange, path, hpath, rfl⟩ | ⟨change, hchange, path, hpath, rfl⟩) |
        htopology) | hintent)
      · exact .code hchange hpath
      · exact .memory hchange hpath
      · split at htopology
        · rename_i hne
          rw [List.mem_singleton.mp htopology]
          exact .topology (by simpa [hbase, hcurrent] using hne)
        · exact absurd htopology List.not_mem_nil
      · split at hintent
        · rename_i hne
          rw [List.mem_singleton.mp hintent]
          exact .intent (by simpa [hbase, hcurrent] using hne)
        · exact absurd hintent List.not_mem_nil
    · intro hroot
      cases hroot with
      | code hchange hpath => exact .inl (.inl (.inl ⟨_, hchange, _, hpath, rfl⟩))
      | memory hchange hpath => exact .inl (.inl (.inr ⟨_, hchange, _, hpath, rfl⟩))
      | topology hne =>
        rw [hbase, hcurrent] at hne
        rw [if_pos (by simpa using hne)]
        exact .inl (.inr (by simp))
      | intent hne =>
        rw [hbase, hcurrent] at hne
        rw [if_pos (show base.taskIntent ≠ current.taskIntent by simpa using hne)]
        exact .inr (by simp)
  · cases h

theorem mem_outgoing {edges : List ScopeEdge} {source : String} {edge : ScopeEdge} :
    edge ∈ outgoing edges source ↔ edge ∈ edges ∧ edge.source = source := by
  rw [outgoing, Keyed.lookup_grouped]
  simp only [List.mem_map, List.mem_filter, decide_eq_true_eq]
  constructor
  · rintro ⟨_, ⟨⟨edge, hedge, rfl⟩, hsource⟩, rfl⟩
    exact ⟨hedge, hsource⟩
  · intro h
    exact ⟨(edge.source, edge), ⟨⟨edge, h.1, rfl⟩, h.2⟩, rfl⟩

theorem step_outgoing {snapshot : DependencySnapshot} {source target : String} :
    Worklist.Step (outgoing snapshot.edges) ScopeEdge.target source target ↔
      Dependent snapshot source target := by
  simp only [Worklist.Step, Dependent, mem_outgoing, and_assoc]

theorem reached_iff_affected {candidate : ScopeCandidateIdentity} {snapshot : DependencySnapshot}
    {roots : List String} (hroots : changedRoots candidate = .ok roots) {nodeId : String} :
    Worklist.Reached (outgoing snapshot.edges) ScopeEdge.target roots nodeId ↔
      Affected candidate snapshot nodeId := by
  have hstep : Worklist.Step (outgoing snapshot.edges) ScopeEdge.target = Dependent snapshot := by
    ext source target
    exact step_outgoing
  simp only [Worklist.Reached, Affected, mem_changedRoots hroots, hstep]

theorem closedScopes_eq {candidate : ScopeCandidateIdentity} {snapshot : DependencySnapshot}
    {roots : List String} (hroots : changedRoots candidate = .ok roots) :
    ClosedScopes candidate snapshot =
      Worklist.Closed (outgoing snapshot.edges) ScopeEdge.target roots := by
  ext S
  simp only [ClosedScopes, Worklist.Closed, Set.mem_ofPred_eq, mem_changedRoots hroots, mem_outgoing]
  constructor
  · rintro ⟨hstart, hedges⟩
    refine ⟨hstart, ?_⟩
    rintro source hsource edge ⟨hedge, rfl⟩
    exact hedges edge hedge hsource
  · rintro ⟨hstart, hedges⟩
    exact ⟨hstart, fun edge hedge hsource => hedges edge.source hsource edge ⟨hedge, rfl⟩⟩

theorem changedRoots_lt {candidate : ScopeCandidateIdentity} {roots : List String}
    (h : changedRoots candidate = .ok roots) : roots.Pairwise (· < ·) := by
  unfold changedRoots at h
  split at h
  · cases h
    exact sortedSet_lt _
  · cases h

theorem reverseClosure_eq_ok {roots ids : List String} {nodes : Nodes} {edges passed : List ScopeEdge}
    (h : reverseClosure roots nodes edges = .ok (ids, passed)) :
    ids = (Worklist.closure (outgoing edges) ScopeEdge.target roots edges).selected ∧
      passed = (Worklist.closure (outgoing edges) ScopeEdge.target roots edges).passed := by
  unfold reverseClosure at h
  obtain ⟨_, -, h⟩ := Attempts.bind_eq_ok.mp h
  cases h
  exact ⟨rfl, rfl⟩

/-! ## One compilation -/

/-- What an accepted compilation went through. -/
structure Compilation (contentDigest : Content → String) (candidate : ScopeCandidateIdentity)
    (snapshot : DependencySnapshot) (checkers : List String) (manifest : ScopeManifest) where
  policies : List CheckerScopePolicy
  tasks : List ScopeNode
  nodes : Nodes
  ids : List String
  edges : List ScopeEdge
  selected : selectedPolicies checkers = .ok policies
  proven : validateCandidate candidate = .ok ()
  valid : validateSnapshot contentDigest candidate snapshot = .ok ()
  canonical : taskNodes candidate = .ok tasks
  known : tasks.foldlM addTaskNode
    (Keyed.dict (snapshot.nodes.map fun node => (node.nodeId, node))) = .ok nodes
  changed : changedRoots candidate = .ok manifest.changedRoots
  rooted : validateRoots manifest.changedRoots nodes = .ok ()
  closed : reverseClosure manifest.changedRoots nodes snapshot.edges = .ok (ids, edges)
  found : ((Canonical.sorted id ids).mapM fun nodeId =>
    match nodes.lookup nodeId with
    | some node => .ok node
    | none => .error (.key nodeId)) = Except.ok (ε := ScopeError) manifest.selectedNodes
  version : checkerRegistryVersion contentDigest = .ok manifest.checkerRegistryVersion
  ordered : manifest.selectedEdges = Canonical.sorted ScopeEdge.key edges
  rest : manifest.candidateDigest = candidate.digest contentDigest ∧
    manifest.sourceIndex = snapshot.sourceIndex ∧ manifest.checkerPolicies = policies ∧
    manifest.fullOnlyCheckers = Canonical.sorted id
      ((policies.filter fun policy => policy.mode = .fullOnly).map CheckerScopePolicy.checker) ∧
    manifest.incrementalReady = decide (manifest.fullOnlyCheckers = []) ∧
    manifest.manifestDigest = contentDigest (.manifest manifest.toManifestPayload)

/-- Some authorities observed the two, and the compilation accepted them. -/
def Accepts (contentDigest : Content → String) (candidate : ScopeCandidateIdentity)
    (snapshot : DependencySnapshot) (checkers : List String) (manifest : ScopeManifest) : Prop :=
  ∃ authority dependencies, authority.observe = .ok candidate ∧
    dependencies candidate = .ok snapshot ∧
    compileScopeManifest contentDigest authority dependencies checkers = .ok manifest

variable {candidate : ScopeCandidateIdentity} {snapshot : DependencySnapshot}
  {checkers : List String} {manifest : ScopeManifest}

theorem Accepts.compilation (h : Accepts contentDigest candidate snapshot checkers manifest) :
    Nonempty (Compilation contentDigest candidate snapshot checkers manifest) := by
  obtain ⟨authority, dependencies, hcandidate, hsnapshot, h⟩ := h
  unfold compileScopeManifest at h
  rw [hcandidate] at h
  obtain ⟨_, hsame, h⟩ := Attempts.bind_eq_ok.mp h
  cases hsame
  rw [hsnapshot] at h
  obtain ⟨_, hsame, h⟩ := Attempts.bind_eq_ok.mp h
  cases hsame
  obtain ⟨policies, hpolicies, h⟩ := Attempts.bind_eq_ok.mp h
  obtain ⟨_, hproven, h⟩ := Attempts.bind_eq_ok.mp h
  obtain ⟨_, hvalid, h⟩ := Attempts.bind_eq_ok.mp h
  obtain ⟨tasks, htasks, h⟩ := Attempts.bind_eq_ok.mp h
  obtain ⟨nodes, hnodes, h⟩ := Attempts.bind_eq_ok.mp h
  obtain ⟨roots, hroots, h⟩ := Attempts.bind_eq_ok.mp h
  obtain ⟨_, hrooted, h⟩ := Attempts.bind_eq_ok.mp h
  obtain ⟨⟨ids, edges⟩, hclosed, h⟩ := Attempts.bind_eq_ok.mp h
  obtain ⟨current, -, h⟩ := Attempts.bind_eq_ok.mp h
  obtain ⟨_, -, h⟩ := Attempts.bind_eq_ok.mp h
  obtain ⟨selected, hfound, h⟩ := Attempts.bind_eq_ok.mp h
  obtain ⟨version, hversion, h⟩ := Attempts.bind_eq_ok.mp h
  cases h
  exact ⟨policies, tasks, nodes, ids, edges, hpolicies, hproven, hvalid, htasks, hnodes, hroots,
    hrooted, hclosed, hfound, hversion, rfl, rfl, rfl, rfl, rfl, rfl, rfl⟩

namespace Compilation

variable (c : Compilation contentDigest candidate snapshot checkers manifest)
include c

theorem nodes_lt : snapshot.nodes.Pairwise fun a b => a.nodeId < b.nodeId := by
  have h := c.valid
  unfold validateSnapshot at h
  obtain ⟨_, -, h⟩ := Attempts.bind_eq_ok.mp h
  obtain ⟨_, -, h⟩ := Attempts.bind_eq_ok.mp h
  obtain ⟨_, hnodes, -⟩ := Attempts.bind_eq_ok.mp h
  exact requireSortedUnique_eq_ok.mp hnodes

theorem edges_lt : snapshot.edges.Pairwise fun a b => a.key < b.key := by
  have h := c.valid
  unfold validateSnapshot at h
  obtain ⟨_, -, h⟩ := Attempts.bind_eq_ok.mp h
  obtain ⟨_, -, h⟩ := Attempts.bind_eq_ok.mp h
  obtain ⟨_, -, h⟩ := Attempts.bind_eq_ok.mp h
  obtain ⟨_, hedges, -⟩ := Attempts.bind_eq_ok.mp h
  exact requireSortedUnique_eq_ok.mp hedges

theorem cataloged_nodes : Canonical.Cataloged ScopeNode.nodeId c.nodes ∧
    ∀ node, node ∈ c.nodes.map Prod.snd → node ∈ snapshot.nodes ∨ node ∈ c.tasks := by
  have hentry : ∀ entry ∈ Keyed.dict (snapshot.nodes.map fun node => (node.nodeId, node)),
      entry.2 ∈ snapshot.nodes ∧ entry.2.nodeId = entry.1 := by
    intro entry hentry
    obtain ⟨node, hnode, rfl⟩ := List.mem_map.mp (Keyed.mem_of_mem_dict hentry)
    exact ⟨hnode, rfl⟩
  have hstart : Canonical.Cataloged ScopeNode.nodeId
      (Keyed.dict (snapshot.nodes.map fun node => (node.nodeId, node))) :=
    ⟨Keyed.nodup_keys_dict _, fun entry h => (hentry entry h).2⟩
  obtain ⟨hcataloged, hmem⟩ := hstart.collect c.known
  refine ⟨hcataloged, fun node hnode => ?_⟩
  rcases (hmem node).mp hnode with hnode | hnode
  · obtain ⟨entry, h, rfl⟩ := List.mem_map.mp hnode
    exact .inl (hentry entry h).1
  · exact .inr hnode

/-- The nodes of the manifest are found under the selected names, in order. -/
theorem selectedIds_eq : manifest.selectedIds = Canonical.sorted id c.ids := by
  refine Attempts.map_of_mapM ?_ c.found
  intro nodeId node h
  split at h
  · rename_i found hfound
    cases h
    exact c.cataloged_nodes.1.2 _ (Keyed.mem_of_lookup hfound)
  · cases h

theorem mem_selectedIds (nodeId : String) :
    nodeId ∈ manifest.selectedIds ↔ Affected candidate snapshot nodeId := by
  have hroots : manifest.changedRoots.Nodup := (changedRoots_lt c.changed).imp ne_of_lt
  rw [c.selectedIds_eq, Canonical.mem_sorted, (reverseClosure_eq_ok c.closed).1,
    Worklist.mem_selected_closure hroots (fun _ edge h => (mem_outgoing.mp h).1),
    reached_iff_affected c.changed]

theorem mem_selectedEdges (edge : ScopeEdge) :
    edge ∈ manifest.selectedEdges ↔ edge ∈ snapshot.edges ∧ edge.source ∈ manifest.selectedIds := by
  have hroots : manifest.changedRoots.Nodup := (changedRoots_lt c.changed).imp ne_of_lt
  rw [c.ordered, Canonical.mem_sorted, (reverseClosure_eq_ok c.closed).2,
    Worklist.mem_passed_closure hroots (fun _ edge h => (mem_outgoing.mp h).1)]
  simp only [reached_iff_affected c.changed, mem_outgoing, c.mem_selectedIds]
  constructor
  · rintro ⟨source, haffected, hedge, rfl⟩
    exact ⟨hedge, haffected⟩
  · intro h
    exact ⟨edge.source, h.2, h.1, rfl⟩

/-- Of two edges that share both nodes, the class tells which it is. -/
theorem selectedEdges_lt : manifest.selectedEdges.Pairwise fun a b => a.key < b.key := by
  have hroots : manifest.changedRoots.Nodup := (changedRoots_lt c.changed).imp ne_of_lt
  have hkeys : (snapshot.edges.map ScopeEdge.key).Nodup :=
    List.pairwise_map.mpr (c.edges_lt.imp ne_of_lt)
  rw [c.ordered]
  apply sorted_nodup_lt
  have honce : c.edges.Nodup := by
    rw [(reverseClosure_eq_ok c.closed).2]
    exact (Worklist.between_closure hroots).once.2
  refine honce.map_on ?_
  intro a ha b hb hkey
  have hin : ∀ edge ∈ c.edges, edge ∈ snapshot.edges := by
    intro edge hedge
    exact ((c.mem_selectedEdges edge).mp (by rwa [c.ordered, Canonical.mem_sorted])).1
  exact List.inj_on_of_nodup_map hkeys (hin a ha) (hin b hb) hkey

theorem exactScope : ExactScope candidate snapshot manifest where
  roots _ := mem_changedRoots c.changed
  ids := c.mem_selectedIds
  nodes node hnode := by
    obtain ⟨nodeId, -, hfound⟩ := (Attempts.mem_mapM c.found node).mp hnode
    split at hfound
    · rename_i found hlookup
      cases hfound
      have hin : node ∈ c.nodes.map Prod.snd :=
        List.mem_map.mpr ⟨_, Keyed.mem_of_lookup hlookup, rfl⟩
      rcases c.cataloged_nodes.2 node hin with h | h
      · exact .inl h
      · exact .inr ⟨c.tasks, c.canonical, h⟩
    · cases hfound
  edges := c.mem_selectedEdges
  least := by
    simp only [c.mem_selectedIds, ← reached_iff_affected c.changed, closedScopes_eq c.changed]
    exact Worklist.reached_isLeast _
  ordered := by
    have hroots : manifest.changedRoots.Nodup := (changedRoots_lt c.changed).imp ne_of_lt
    refine ⟨changedRoots_lt c.changed, ?_, c.selectedEdges_lt⟩
    rw [c.selectedIds_eq]
    apply sorted_nodup_lt
    rw [List.map_id', (reverseClosure_eq_ok c.closed).1]
    exact (Worklist.between_closure hroots).once.1

end Compilation

/-! ## More changes -/

theorem MoreChanges.changedRoot {more : ScopeCandidateIdentity} (h : MoreChanges candidate more)
    {root : String} (hroot : ChangedRoot candidate root) : ChangedRoot more root := by
  cases hroot with
  | code hchange hpath => exact .code (h.code hchange) hpath
  | memory hchange hpath => exact .memory (h.memory hchange) hpath
  | topology hne => exact h.topology (.topology hne)
  | intent hne => exact h.intent (.intent hne)

theorem MoreChanges.affected {more : ScopeCandidateIdentity} {larger : DependencySnapshot}
    (h : MoreChanges candidate more) (hedges : snapshot.edges ⊆ larger.edges) {nodeId : String}
    (haffected : Affected candidate snapshot nodeId) : Affected more larger nodeId := by
  obtain ⟨root, hroot, hpath⟩ := haffected
  refine ⟨root, h.changedRoot hroot, Relation.ReflTransGen.mono ?_ root nodeId hpath⟩
  intro source target hstep
  obtain ⟨edge, hedge, hends⟩ := hstep
  exact ⟨edge, hedges hedge, hends⟩

/-- One more change, or one more edge, leaves nothing out that was in before. -/
theorem ExactScope.mono {more : ScopeCandidateIdentity} {larger : DependencySnapshot}
    {grown : ScopeManifest} (h : ExactScope candidate snapshot manifest)
    (hgrown : ExactScope more larger grown) (hmore : MoreChanges candidate more)
    (hedges : snapshot.edges ⊆ larger.edges) :
    manifest.changedRoots ⊆ grown.changedRoots ∧ manifest.selectedIds ⊆ grown.selectedIds ∧
      manifest.selectedEdges ⊆ grown.selectedEdges := by
  have hids : manifest.selectedIds ⊆ grown.selectedIds := by
    intro nodeId hnode
    exact (hgrown.ids nodeId).mpr (hmore.affected hedges ((h.ids nodeId).mp hnode))
  refine ⟨?_, hids, ?_⟩
  · intro root hroot
    exact (hgrown.roots root).mpr (hmore.changedRoot ((h.roots root).mp hroot))
  · intro edge hedge
    obtain ⟨hin, hsource⟩ := (h.edges edge).mp hedge
    exact (hgrown.edges edge).mpr ⟨hedges hin, hids hsource⟩

/-! ## Any order -/

theorem GitTreeDelta.ext_of_perm {delta other : GitTreeDelta}
    (hnamespace : delta.namespace_ = other.namespace_) (hroot : delta.root = other.root)
    (hbase : delta.baseTree = other.baseTree) (hcandidate : delta.candidateTree = other.candidateTree)
    (hperm : delta.changes.Perm other.changes) : delta = other := by
  have hchanges : delta.changes = other.changes :=
    delta.canonical.ext (fun _ _ h => h) other.canonical fun _ => hperm.mem_iff
  cases delta
  cases other
  simp_all

theorem Reordered.eq {other : ScopeCandidateIdentity} (h : Reordered candidate other) :
    candidate = other := by
  have hcode : candidate.code = other.code := by
    apply GitTreeDelta.ext_of_perm _ _ h.code.1 h.code.2.1 h.code.2.2
    · rw [candidate.namespaces.1, other.namespaces.1]
    · rw [candidate.roots.1, other.roots.1, h.pair]
  have hmemory : candidate.memory = other.memory := by
    apply GitTreeDelta.ext_of_perm _ _ h.memory.1 h.memory.2.1 h.memory.2.2
    · rw [candidate.namespaces.2, other.namespaces.2]
    · rw [candidate.roots.2, other.roots.2, h.pair]
  have hpair := h.pair
  have htask := h.task
  cases candidate
  cases other
  simp_all

theorem selectedPolicies_congr {others : List String}
    (h : ∀ checker, checker ∈ checkers ↔ checker ∈ others) :
    selectedPolicies checkers = selectedPolicies others := by
  unfold selectedPolicies
  rw [sortedSet_congr h]

/-- A manifest is told by the candidate, the graph, the index and the set of checkers. -/
theorem Compilation.unique {others : List String} {other : DependencySnapshot}
    {again : ScopeManifest} (c : Compilation contentDigest candidate snapshot checkers manifest)
    (d : Compilation contentDigest candidate other others again)
    (hindex : snapshot.sourceIndex = other.sourceIndex) (hnodes : snapshot.nodes = other.nodes)
    (hedges : snapshot.edges = other.edges)
    (hcheckers : ∀ checker, checker ∈ checkers ↔ checker ∈ others) : manifest = again := by
  have hpolicies : c.policies = d.policies :=
    Except.ok.inj (c.selected.symm.trans ((selectedPolicies_congr hcheckers).trans d.selected))
  have htasks : c.tasks = d.tasks := Except.ok.inj (c.canonical.symm.trans d.canonical)
  have hknown : c.nodes = d.nodes := by
    refine Except.ok.inj (c.known.symm.trans (Eq.trans ?_ d.known))
    rw [htasks, hnodes]
  have hroots : manifest.changedRoots = again.changedRoots :=
    Except.ok.inj (c.changed.symm.trans d.changed)
  have hclosed : (c.ids, c.edges) = (d.ids, d.edges) := by
    refine Except.ok.inj (c.closed.symm.trans (Eq.trans ?_ d.closed))
    rw [hroots, hknown, hedges]
  obtain ⟨hids, hpassed⟩ := Prod.mk.inj hclosed
  have hfound : manifest.selectedNodes = again.selectedNodes := by
    refine Except.ok.inj (c.found.symm.trans (Eq.trans ?_ d.found))
    rw [hids, hknown]
  have hversion : manifest.checkerRegistryVersion = again.checkerRegistryVersion :=
    Except.ok.inj (c.version.symm.trans d.version)
  obtain ⟨hdigest, hsource, hchosen, hfull, hready, hown⟩ := c.rest
  obtain ⟨hdigest', hsource', hchosen', hfull', hready', hown'⟩ := d.rest
  have hpayload : manifest.toManifestPayload = again.toManifestPayload := by
    ext1
    · rw [hdigest, hdigest']
    · exact hversion
    · rw [hsource, hsource', hindex]
    · exact hroots
    · exact hfound
    · rw [c.ordered, d.ordered, hpassed]
    · rw [hchosen, hchosen', hpolicies]
    · rw [hfull, hfull', hpolicies]
    · rw [hready, hready', hfull, hfull', hpolicies]
  calc manifest = ⟨manifest.toManifestPayload, contentDigest (.manifest manifest.toManifestPayload)⟩ := by
        rw [← hown]
    _ = ⟨again.toManifestPayload, contentDigest (.manifest again.toManifestPayload)⟩ := by
        rw [hpayload]
    _ = again := by rw [← hown']

/-! ## Any supply -/

theorem eq_of_getD_empty {path other : Option String} (hpath : path.all canonicalPath = true)
    (hother : other.all canonicalPath = true) (h : path.getD "" = other.getD "") :
    path = other := by
  have hempty : canonicalPath "" = false := by decide
  cases path with
  | none =>
    cases other with
    | none => rfl
    | some q =>
      rw [show q = "" from h.symm, Option.all_some, hempty] at hother
      cases hother
  | some p =>
    cases other with
    | none =>
      rw [show p = "" from h, Option.all_some, hempty] at hpath
      cases hpath
    | some q => exact congrArg some h

/-- The two paths tell the status: a change that keeps its path is no rename. -/
theorem GitPathChange.key_eq_of_paths {a b : GitPathChange} (h : a.paths = b.paths) :
    a.key = b.key := by
  obtain ⟨hold, hnew⟩ := Prod.mk.inj h
  have hcanonical := a.canonical
  have hcanonical' := b.canonical
  rw [Bool.and_eq_true] at hcanonical hcanonical'
  have holdPath : a.oldPath = b.oldPath := eq_of_getD_empty hcanonical.1 hcanonical'.1 hold
  have hnewPath : a.newPath = b.newPath := eq_of_getD_empty hcanonical.2 hcanonical'.2 hnew
  have hstatus : a.status = b.status := by
    have hshape := a.shaped
    have hshape' := b.shaped
    have hretained := a.retained
    have hretained' := b.retained
    have hmoved := a.moved
    have hmoved' := b.moved
    rw [holdPath, hnewPath] at hshape hretained hmoved
    cases ha : a.status <;> cases hb : b.status <;>
      simp_all [GitChangeStatus.shape]
  rw [GitPathChange.key, GitPathChange.key, holdPath, hnewPath, hstatus]

theorem GitPathChange.key_le_of_paths {a b : GitPathChange} (h : a.paths ≤ b.paths) :
    a.key ≤ b.key := by
  rcases h.lt_or_eq with hlt | heq
  · apply le_of_lt
    simp only [GitPathChange.paths, GitPathChange.key, Prod.Lex.toLex_lt_toLex] at hlt ⊢
    tauto
  · exact le_of_eq (key_eq_of_paths heq)

/-- However the changes came, the difference that is observed is the canonical one. -/
theorem observeGitTreeDelta_of_perm (delta : GitTreeDelta) {changes : List GitPathChange}
    (hperm : changes.Perm delta.changes) :
    observeGitTreeDelta delta.namespace_ delta.root delta.baseTree delta.candidateTree changes =
      .ok delta := by
  have hordered : Canonical.sorted GitPathChange.paths changes = delta.changes := by
    have hpaths : (Canonical.sorted GitPathChange.paths changes).Perm delta.changes :=
      (Canonical.sorted_perm changes).trans hperm
    have hkeys : Canonical.sorted GitPathChange.key
        (Canonical.sorted GitPathChange.paths changes) =
          Canonical.sorted GitPathChange.paths changes := by
      rw [Canonical.sorted_eq_iff]
      have hle : (Canonical.sorted GitPathChange.paths changes).Pairwise
          fun a b => a.paths ≤ b.paths := Canonical.sorted_pairwise changes
      exact hle.imp GitPathChange.key_le_of_paths
    have hunique : ((Canonical.sorted GitPathChange.paths changes).map GitPathChange.key).Nodup :=
      (hpaths.map _).nodup_iff.mpr delta.canonical.2
    have hcanonical : Canonical.IsCanonical GitPathChange.key GitPathChange.key
        (Canonical.sorted GitPathChange.paths changes) := ⟨hkeys, hunique⟩
    exact Canonical.IsCanonical.ext (fun _ _ h => h) hcanonical delta.canonical
      fun _ => hpaths.mem_iff
  simp only [observeGitTreeDelta, hordered, dif_pos delta.canonical.1, dif_pos delta.canonical.2]

theorem buildDependencySnapshot_congr {sourceIndex : SourceIndexObservation}
    {nodes nodes' : List ScopeNode} {edges edges' : List ScopeEdge}
    (hnodes : (nodes.map ScopeNode.nodeId).Nodup) (hedges : (edges.map ScopeEdge.key).Nodup)
    (hpermNodes : nodes.Perm nodes') (hpermEdges : edges.Perm edges') :
    buildDependencySnapshot contentDigest candidate sourceIndex nodes edges =
      buildDependencySnapshot contentDigest candidate sourceIndex nodes' edges' := by
  simp only [buildDependencySnapshot, sorted_congr hnodes hpermNodes,
    sorted_congr hedges hpermEdges]

/-- What was accepted is accepted however its nodes, edges and checkers are supplied. -/
theorem Accepts.of_perm {sourceIndex : SourceIndexObservation} {nodes nodes' : List ScopeNode}
    {edges edges' : List ScopeEdge} {others : List String}
    (h : Accepts contentDigest candidate
      (buildDependencySnapshot contentDigest candidate sourceIndex nodes edges) checkers manifest)
    (hpermNodes : nodes.Perm nodes') (hpermEdges : edges.Perm edges')
    (hcheckers : ∀ checker, checker ∈ checkers ↔ checker ∈ others) :
    Accepts contentDigest candidate
      (buildDependencySnapshot contentDigest candidate sourceIndex nodes' edges') others
      manifest := by
  obtain ⟨c⟩ := h.compilation
  have hnodes : (nodes.map ScopeNode.nodeId).Nodup := nodup_of_sorted_lt c.nodes_lt
  have hedges : (edges.map ScopeEdge.key).Nodup := nodup_of_sorted_lt c.edges_lt
  rw [← buildDependencySnapshot_congr hnodes hedges hpermNodes hpermEdges]
  obtain ⟨authority, dependencies, hcandidate, hsnapshot, hcompile⟩ := h
  refine ⟨authority, dependencies, hcandidate, hsnapshot, ?_⟩
  unfold compileScopeManifest at hcompile ⊢
  rw [← selectedPolicies_congr hcheckers]
  exact hcompile

/-! ## The scope -/

/-- Incremental scope is the exact closure of the changes, and of nothing else. -/
theorem incremental_scope_exact
    (h : Accepts contentDigest candidate snapshot checkers manifest) :
    ExactScope candidate snapshot manifest ∧
    (∀ more larger others grown, Accepts contentDigest more larger others grown →
      MoreChanges candidate more → snapshot.edges ⊆ larger.edges →
      manifest.changedRoots ⊆ grown.changedRoots ∧ manifest.selectedIds ⊆ grown.selectedIds ∧
        manifest.selectedEdges ⊆ grown.selectedEdges) ∧
    (∀ other graph others again, Accepts contentDigest other graph others again →
      Reordered candidate other → snapshot.sourceIndex = graph.sourceIndex →
      snapshot.nodes.Perm graph.nodes → snapshot.edges.Perm graph.edges →
      (∀ checker, checker ∈ checkers ↔ checker ∈ others) → manifest = again) ∧
    (∀ sourceIndex nodes nodes' edges edges' others,
      snapshot = buildDependencySnapshot contentDigest candidate sourceIndex nodes edges →
      nodes.Perm nodes' → edges.Perm edges' → (∀ checker, checker ∈ checkers ↔ checker ∈ others) →
      Accepts contentDigest candidate
        (buildDependencySnapshot contentDigest candidate sourceIndex nodes' edges') others
        manifest) ∧
    ∀ delta ∈ [candidate.code, candidate.memory], ∀ changes, changes.Perm delta.changes →
      observeGitTreeDelta delta.namespace_ delta.root delta.baseTree delta.candidateTree changes =
        .ok delta := by
  obtain ⟨c⟩ := h.compilation
  refine ⟨c.exactScope, ?_, ?_, ?_, ?_⟩
  · intro more larger others grown hgrown hmore hedges
    obtain ⟨d⟩ := hgrown.compilation
    exact c.exactScope.mono d.exactScope hmore hedges
  · intro other graph others again hagain hreordered hindex hnodes hedges hcheckers
    cases hreordered.eq
    obtain ⟨d⟩ := hagain.compilation
    have hnodes : snapshot.nodes = graph.nodes := eq_of_perm_of_lt c.nodes_lt d.nodes_lt hnodes
    have hedges : snapshot.edges = graph.edges := eq_of_perm_of_lt c.edges_lt d.edges_lt hedges
    exact c.unique d hindex hnodes hedges hcheckers
  · intro sourceIndex nodes nodes' edges edges' others hbuilt hnodes hedges hcheckers
    subst hbuilt
    exact h.of_perm hnodes hedges hcheckers
  · exact fun delta _ changes hperm => observeGitTreeDelta_of_perm delta hperm

/-- A route and a document that depend on each other, twice over; the document was renamed. -/
def cyclicCandidate : ScopeCandidateIdentity :=
  let observation : CanonicalTaskObservation :=
    ⟨"/t", ⟨"r", "m/l.json"⟩, "s", "agents-remember.task-document-source", "v1", some "a",
      some (.identity "i")⟩
  { pairIdentity := ⟨"r", "/t/enclosures/l/c.md", "0", "/c", "/m", "b", "w", "1", "b", "w", "2",
      "/m/o", "/m/m.md"⟩
    code := ⟨.code, "/c", "3", "3", [], by decide, by decide⟩
    memory := ⟨.memory, "/m", "4", "5",
      [⟨.renamed, some "a", some "b", some "6", some "6", by decide, rfl, by decide, by decide⟩],
      by decide, by decide⟩
    task := ⟨some observation, some { observation with semanticTopologyDigest := some "z" }⟩
    namespaces := ⟨rfl, rfl⟩
    roots := ⟨rfl, rfl⟩
    codeStill := by decide
    memoryStill := by decide }

/-- Two nodes that depend on each other. -/
def cyclicSnapshot : DependencySnapshot :=
  let node (nodeId : String) (h : canonicalNodeId nodeId = true) : ScopeNode :=
    ⟨nodeId, "7", "agents-remember.git-memory-tree", "v1", ["tree"], h, by decide⟩
  buildDependencySnapshot (fun _ => "0") cyclicCandidate ⟨"8", "/c", "/m", "0"⟩
    [node "memory:b" (by decide), node "memory:a" (by decide), node "memory:c" (by decide),
      node "memory:d" (by decide)]
    [dependencyEdge (fun _ => "0") "memory:c" "memory:b" .routeIndexDependency
        ⟨["route"], by decide⟩,
      dependencyEdge (fun _ => "0") "memory:b" "memory:c" .sourceToCitingMemoryDocument
        ⟨["cite"], by decide⟩,
      dependencyEdge (fun _ => "0") "memory:b" "memory:c" .sourceToGoverningRoute
        ⟨["route"], by decide⟩,
      dependencyEdge (fun _ => "0") "memory:d" "memory:c" .sourceToGoverningRoute
        ⟨["route"], by decide⟩]

theorem incremental_scope_exact_cyclic : ∃ manifest,
    manifest.selectedIds = ["memory:a", "memory:b", "memory:c", "task:semantic-topology"] ∧
      ExactScope cyclicCandidate cyclicSnapshot manifest := by
  have hids : ((compileScopeManifest (fun _ => "0") ⟨.ok cyclicCandidate, .ok cyclicCandidate⟩
      (fun _ => .ok cyclicSnapshot) ["style.document_shape.tables"]).map
        ScopeManifest.selectedIds).toOption =
      some ["memory:a", "memory:b", "memory:c", "task:semantic-topology"] := by decide +kernel
  cases hcompile : compileScopeManifest (fun _ => "0") ⟨.ok cyclicCandidate, .ok cyclicCandidate⟩
      (fun _ => .ok cyclicSnapshot) ["style.document_shape.tables"] with
  | error e =>
    rw [hcompile] at hids
    cases hids
  | ok manifest =>
    rw [hcompile] at hids
    refine ⟨manifest, Option.some.inj hids, ?_⟩
    exact (incremental_scope_exact ⟨_, _, rfl, rfl, hcompile⟩).1
end AgentsRemember.Scope
