import AgentsRemember.Queue.Waves

/-!
# Queue — GraphValidation

The admission of an execution graph with its endpoint index: the nodes of each
master and of each leaf, built once, and every edge resolved through it. The
index answers as the search through the nodes does, so a graph is admitted
exactly when it is what `ValidGraph` says, and its waves are the layers of the
resolved graph.
-/

namespace AgentsRemember.Queue

open Attempts Layers

/-! ## The rule for an endpoint -/

/-- One edge endpoint, resolved to exactly one declared node. -/
def resolveGraphEndpoint (nodes : List SprintExecutionNode) (endpoint : SprintExecutionEndpoint) :
    Except GraphRefusal SprintExecutionNode :=
  let found := nodes.filter fun node => node.ref = endpoint.ref
  match endpoint.leafId with
  | some leaf =>
    match found.filter fun node => leaf ∈ node.leafIds with
    | [] => .error (.leafNotPlaced leaf endpoint.ref)
    | [node] => .ok node
    | _ :: _ :: _ => .error (.ambiguous endpoint.ref)
  | none =>
    match found with
    | [] => .error (.undeclaredNode endpoint.ref)
    | [node] => .ok node
    | _ :: _ :: _ => .error (.ambiguous endpoint.ref)

/-! ## The index -/

/-- The key of a leaf inside its master. -/
structure LeafKey where
  ref : TaskDocumentRef
  leaf : String
deriving DecidableEq

/-- The nodes by master, and by leaf. -/
structure EndpointIndex where
  byRef : List (TaskDocumentRef × List Nat)
  byLeaf : List (LeafKey × List Nat)

/-- The indexes of the nodes of each master. -/
def nodesByRef (nodes : List SprintExecutionNode) : List (TaskDocumentRef × List Nat) :=
  Keyed.grouped (nodes.zipIdx.map fun e => (e.1.ref, e.2))

/-- No master has both a lump and a segment. -/
def checkOwnership (nodes : List SprintExecutionNode) : Except GraphRefusal Unit :=
  let lumpRefs := (nodes.filter fun node => node.kind = .master).map SprintExecutionNode.ref
  (nodesByRef nodes).forM fun owned =>
    if 1 < owned.2.length ∧ owned.1 ∈ lumpRefs then .error (.lumpAndSegment owned.1) else .ok ()

/-- The leafs of the nodes, each with its node. -/
def leafPlaces (nodes : List SprintExecutionNode) : List (LeafKey × Nat) :=
  nodes.zipIdx.flatMap fun e => e.1.leafIds.map fun leaf => (⟨e.1.ref, leaf⟩, e.2)

/-- Every leaf is placed once, and indexed under its master. -/
def placeLeafs : List (String × TaskDocumentRef) → List (LeafKey × List Nat) →
    List (LeafKey × Nat) →
      Except GraphRefusal (List (LeafKey × List Nat))
  | _, byLeaf, [] => .ok byLeaf
  | placed, byLeaf, (key, index) :: rest =>
    match placed.lookup key.leaf with
    | some owner => .error (.leafPlacedTwice key.leaf owner key.ref)
    | none => placeLeafs (Keyed.set placed key.leaf key.ref) (Keyed.attach byLeaf key index) rest

/-- The index of a graph, built in one pass. -/
def buildEndpointIndex (nodes : List SprintExecutionNode) : Except GraphRefusal EndpointIndex := do
  checkOwnership nodes
  let byLeaf ← placeLeafs [] [] (leafPlaces nodes)
  .ok ⟨nodesByRef nodes, byLeaf⟩

namespace EndpointIndex
variable (index : EndpointIndex)

/-- An endpoint, looked up in the index. -/
def resolveEndpoint (endpoint : SprintExecutionEndpoint) : Except GraphRefusal Nat :=
  let found := match endpoint.leafId with
    | some leaf => (index.byLeaf.lookup ⟨endpoint.ref, leaf⟩).getD []
    | none => (index.byRef.lookup endpoint.ref).getD []
  match found, endpoint.leafId with
  | [], some leaf => .error (.leafNotPlaced leaf endpoint.ref)
  | [], none => .error (.undeclaredNode endpoint.ref)
  | [found], _ => .ok found
  | _ :: _ :: _, _ => .error (.ambiguous endpoint.ref)

/-- The indexes of both ends, which differ. -/
def resolveEdge (edge : SprintExecutionEdge) : Except GraphRefusal (Nat × Nat) := do
  let predecessor ← index.resolveEndpoint edge.predecessor
  let successor ← index.resolveEndpoint edge.successor
  if predecessor = successor then .error .selfEdge else .ok (predecessor, successor)

/-- All edges through the index, none of them twice. -/
def resolveEdges (edges : List SprintExecutionEdge) : Except GraphRefusal (List (Nat × Nat)) := do
  let resolved ← edges.mapM index.resolveEdge
  if resolved.Nodup then .ok resolved else .error .duplicateEdges

end EndpointIndex

/-- The admission of a graph through its index. -/
def validateGraph (nodes : List SprintExecutionNode) (edges : List SprintExecutionEdge) :
    Except GraphRefusal ExecutionGraphAnalysis := do
  if !nodes.Nodup then .error .duplicateNodes
  let index ← buildEndpointIndex nodes
  let resolved ← index.resolveEdges edges
  let waves ← deriveWaves nodes resolved
  .ok { resolvedEdgeIndexes := resolved, waves := waves }

/-! ## The index answers as the nodes do -/

section index
variable {nodes : List SprintExecutionNode}

/-- One more key is seen: the rest is new beside it. -/
theorem fresh_cons_iff {κ : Type} {seen keys : List κ} {key : κ} :
    (∀ k ∈ key :: keys, k ∉ seen) ∧ (key :: keys).Nodup ↔
      key ∉ seen ∧ (∀ k ∈ keys, k ∉ seen ++ [key]) ∧ keys.Nodup := by
  simp only [List.mem_cons, forall_eq_or_imp, List.nodup_cons, List.mem_append, List.not_mem_nil,
    or_false, not_or]
  constructor
  · rintro ⟨⟨hkey, hnew⟩, hfirst, hnodup⟩
    exact ⟨hkey, fun k hk => ⟨hnew k hk, fun heq => hfirst (heq ▸ hk)⟩, hnodup⟩
  · rintro ⟨hkey, hnew, hnodup⟩
    exact ⟨⟨hkey, fun k hk => (hnew k hk).1⟩, fun hk => (hnew key hk).2 rfl, hnodup⟩

theorem placeLeafs_eq_ok {placed : List (String × TaskDocumentRef)}
    {byLeaf found : List (LeafKey × List Nat)} {places : List (LeafKey × Nat)} :
    placeLeafs placed byLeaf places = .ok found ↔
      ((∀ leaf ∈ places.map (fun place => place.1.leaf), leaf ∉ placed.map Prod.fst) ∧
        (places.map fun place => place.1.leaf).Nodup) ∧
        places.foldl (fun d e => Keyed.attach d e.1 e.2) byLeaf = found := by
  induction places generalizing placed byLeaf with
  | nil => simp [placeLeafs]
  | cons place rest ih =>
    obtain ⟨key, index⟩ := place
    rw [placeLeafs, List.map_cons, fresh_cons_iff, List.foldl_cons]
    cases howner : placed.lookup key.leaf with
    | some owner =>
      have hin : key.leaf ∈ placed.map Prod.fst := by
        rw [← Keyed.lookup_isSome_iff, howner]
        rfl
      simp [hin]
    | none =>
      have hout : key.leaf ∉ placed.map Prod.fst := by
        rw [← Keyed.lookup_isSome_iff, howner]
        simp
      dsimp only
      rw [ih, Keyed.keys_set, if_neg hout]
      simp only [hout, not_false_eq_true, true_and]

theorem lookup_nodesByRef (ref : TaskDocumentRef) :
    ((nodesByRef nodes).lookup ref).getD [] =
      (nodes.zipIdx.filter fun e => e.1.ref = ref).map Prod.snd := by
  unfold nodesByRef
  rw [Keyed.lookup_grouped, List.filter_map, List.map_map]
  rfl

theorem leafIds_nodup (node : SprintExecutionNode) : node.leafIds.Nodup := by
  have hchecked := node.checked
  split at hchecked
  · exact hchecked.2
  · rw [hchecked]
    exact .nil

/-- A node has at most one place for a leaf. -/
theorem filter_places (node : SprintExecutionNode) (index : Nat) (key : LeafKey) :
    (node.leafIds.map fun leaf => ((⟨node.ref, leaf⟩ : LeafKey), index)).filter
        (fun place => place.1 = key) =
      if node.ref = key.ref ∧ key.leaf ∈ node.leafIds then [(key, index)] else [] := by
  obtain ⟨ref, leaf⟩ := key
  have honce := leafIds_nodup node
  generalize node.leafIds = leafs at honce ⊢
  induction leafs with
  | nil => simp
  | cons first rest ih =>
    obtain ⟨hfirst, hrest⟩ := List.nodup_cons.mp honce
    rw [List.map_cons, List.filter_cons, ih hrest]
    by_cases href : node.ref = ref
    · by_cases hleaf : first = leaf
      · subst hleaf
        simp [href, hfirst]
      · simp [href, hleaf, Ne.symm hleaf]
    · simp [href]

theorem lookup_leafPlaces (key : LeafKey) :
    ((Keyed.grouped (leafPlaces nodes)).lookup key).getD [] =
      (nodes.zipIdx.filter fun e => e.1.ref = key.ref ∧ key.leaf ∈ e.1.leafIds).map Prod.snd := by
  rw [Keyed.lookup_grouped]
  unfold leafPlaces
  rw [List.filter_flatMap]
  induction nodes.zipIdx with
  | nil => rfl
  | cons e rest ih =>
    rw [List.flatMap_cons, List.map_append, ih, filter_places, List.filter_cons]
    by_cases hboth : e.1.ref = key.ref ∧ key.leaf ∈ e.1.leafIds <;> simp [hboth]

theorem map_fst_filter_zipIdx (p : SprintExecutionNode → Bool) :
    (nodes.zipIdx.filter fun e => p e.1).map Prod.fst = nodes.filter p := by
  have hfst : nodes.zipIdx.map Prod.fst = nodes := List.zipIdx_map_fst 0 nodes
  conv_rhs => rw [← hfst, List.filter_map]
  rfl

/-! ## Ownership -/

/-- A master has several nodes, and one of them is the whole master. -/
def SharedLump (nodes : List SprintExecutionNode) (ref : TaskDocumentRef) : Prop :=
  1 < (nodes.filter fun node => node.ref = ref).length ∧
    ∃ lump ∈ nodes, lump.ref = ref ∧ lump.kind = .master

/-- A master is one lump, or it is segments. -/
def LumpOrSegments (nodes : List SprintExecutionNode) : Prop :=
  ∀ lump ∈ nodes, lump.kind = .master → ∀ node ∈ nodes, node.ref = lump.ref → node = lump

theorem lumpOrSegments_iff (hnodup : nodes.Nodup) :
    LumpOrSegments nodes ↔ ∀ ref, ¬SharedLump nodes ref := by
  constructor
  · rintro h ref ⟨hseveral, lump, hlump, rfl, hkind⟩
    have hall : ∀ node ∈ nodes.filter (fun node => node.ref = lump.ref), node = lump := by
      intro node hnode
      obtain ⟨hnode, href⟩ := List.mem_filter.mp hnode
      exact h lump hlump hkind node hnode (of_decide_eq_true href)
    have honce := hnodup.filter fun node => decide (node.ref = lump.ref)
    match hfilter : nodes.filter fun node => node.ref = lump.ref with
    | [] => simp [hfilter] at hseveral
    | [_] => simp [hfilter] at hseveral
    | a :: b :: rest =>
      rw [hfilter] at hall honce
      have ha := hall a (by simp)
      have hb := hall b (by simp)
      rw [ha, hb] at honce
      simp at honce
  · intro h lump hlump hkind node hnode href
    by_contra hne
    refine h lump.ref ⟨?_, lump, hlump, rfl, hkind⟩
    have hsub : [node, lump] ⊆ nodes.filter fun node => node.ref = lump.ref := by
      intro n hn
      rcases List.mem_cons.mp hn with rfl | hn
      · exact List.mem_filter.mpr ⟨hnode, decide_eq_true href⟩
      · rw [List.mem_singleton.mp hn]
        exact List.mem_filter.mpr ⟨hlump, decide_eq_true rfl⟩
    have hpair : [node, lump].Nodup := by simpa using hne
    exact (hpair.subperm hsub).length_le

theorem checkOwnership_eq_ok (hnodup : nodes.Nodup) :
    checkOwnership nodes = .ok () ↔ LumpOrSegments nodes := by
  have hlength : ∀ ref, ((nodes.zipIdx.filter fun e => e.1.ref = ref).map Prod.snd).length =
      (nodes.filter fun node => node.ref = ref).length := by
    intro ref
    rw [← map_fst_filter_zipIdx, List.length_map, List.length_map]
  have hlump : ∀ ref, ref ∈ (nodes.filter fun node => node.kind = .master).map
      SprintExecutionNode.ref ↔ ∃ lump ∈ nodes, lump.ref = ref ∧ lump.kind = .master := by
    intro ref
    simp only [List.mem_map, List.mem_filter, decide_eq_true_eq]
    constructor
    · rintro ⟨lump, ⟨hlump, hkind⟩, href⟩
      exact ⟨lump, hlump, href, hkind⟩
    · rintro ⟨lump, hlump, href, hkind⟩
      exact ⟨lump, ⟨hlump, hkind⟩, href⟩
  have hkeys : ((nodesByRef nodes).map Prod.fst).Nodup := Keyed.nodup_keys_grouped _
  unfold checkOwnership
  dsimp only
  rw [forM_eq_ok, lumpOrSegments_iff hnodup]
  constructor
  · rintro h ref ⟨hseveral, lump, hmem, href, hkind⟩
    have hkey : ref ∈ (nodesByRef nodes).map Prod.fst := by
      unfold nodesByRef
      rw [Keyed.mem_keys_grouped, List.map_map]
      obtain ⟨i, hi⟩ := List.mem_iff_getElem?.mp hmem
      exact List.mem_map.mpr ⟨(lump, i), List.mem_zipIdx_iff_getElem?.mpr hi, href⟩
    obtain ⟨owned, howned, rfl⟩ := List.mem_map.mp hkey
    have hlist : ((nodesByRef nodes).lookup owned.1).getD [] = _ := lookup_nodesByRef owned.1
    rw [Keyed.lookup_of_mem hkeys howned] at hlist
    have hok := h owned howned
    rw [if_pos ⟨by rwa [show owned.2 = _ from hlist, hlength],
      (hlump _).mpr ⟨lump, hmem, href, hkind⟩⟩] at hok
    cases hok
  · intro h owned howned
    have hlist : ((nodesByRef nodes).lookup owned.1).getD [] = _ := lookup_nodesByRef owned.1
    rw [Keyed.lookup_of_mem hkeys howned] at hlist
    rw [if_neg]
    rintro ⟨hseveral, hin⟩
    rw [show owned.2 = _ from hlist, hlength] at hseveral
    exact h owned.1 ⟨hseveral, (hlump _).mp hin⟩

theorem leafPlaces_map : (leafPlaces nodes).map (fun place => place.1.leaf) =
    nodes.flatMap SprintExecutionNode.leafIds := by
  have hfst : nodes.zipIdx.map Prod.fst = nodes := List.zipIdx_map_fst 0 nodes
  unfold leafPlaces
  conv_rhs => rw [← hfst, List.flatMap_map]
  rw [List.map_flatMap]
  apply List.flatMap_congr
  intro e _
  rw [List.map_map]
  exact List.map_id _

/-- The index is built when masters and leafs are owned, and it is what the nodes
say. -/
theorem buildEndpointIndex_eq_ok (hnodup : nodes.Nodup) {index : EndpointIndex} :
    buildEndpointIndex nodes = .ok index ↔ LumpOrSegments nodes ∧
      (nodes.flatMap SprintExecutionNode.leafIds).Nodup ∧
      index = ⟨nodesByRef nodes, Keyed.grouped (leafPlaces nodes)⟩ := by
  unfold buildEndpointIndex
  rw [bind_eq_ok]
  constructor
  · rintro ⟨_, howned, h⟩
    obtain ⟨byLeaf, hplaces, h⟩ := bind_eq_ok.mp h
    cases h
    obtain ⟨⟨-, honce⟩, rfl⟩ := placeLeafs_eq_ok.mp hplaces
    rw [leafPlaces_map] at honce
    exact ⟨(checkOwnership_eq_ok hnodup).mp howned, honce, rfl⟩
  · rintro ⟨howned, honce, rfl⟩
    refine ⟨(), (checkOwnership_eq_ok hnodup).mpr howned, bind_eq_ok.mpr ⟨_, ?_, rfl⟩⟩
    rw [placeLeafs_eq_ok, leafPlaces_map]
    exact ⟨⟨fun _ _ => List.not_mem_nil, honce⟩, rfl⟩

/-! ## Endpoints -/

/-- The index resolves an endpoint to the node that the search finds. -/
theorem resolveEndpoint_index (endpoint : SprintExecutionEndpoint) :
    EndpointIndex.resolveEndpoint ⟨nodesByRef nodes, Keyed.grouped (leafPlaces nodes)⟩ endpoint =
      (resolveEndpoint nodes endpoint).map Prod.snd := by
  obtain ⟨ref, leafId⟩ := endpoint
  unfold EndpointIndex.resolveEndpoint resolveEndpoint
  cases leafId with
  | none =>
    have hmatches : ((nodesByRef nodes).lookup ref).getD [] =
        (endpointMatches nodes ⟨ref, none⟩).map Prod.snd := by
      rw [lookup_nodesByRef]
      simp [endpointMatches]
    dsimp only
    rw [hmatches]
    rcases endpointMatches nodes ⟨ref, none⟩ with _ | ⟨a, _ | ⟨b, rest⟩⟩ <;> rfl
  | some leaf =>
    have hmatches : ((Keyed.grouped (leafPlaces nodes)).lookup ⟨ref, leaf⟩).getD [] =
        (endpointMatches nodes ⟨ref, some leaf⟩).map Prod.snd := by
      rw [lookup_leafPlaces]
      simp [endpointMatches]
    dsimp only
    rw [hmatches]
    rcases endpointMatches nodes ⟨ref, some leaf⟩ with _ | ⟨a, _ | ⟨b, rest⟩⟩ <;> rfl

/-- So does the rule for an endpoint of an admitted graph. -/
theorem resolveGraphEndpoint_eq (endpoint : SprintExecutionEndpoint) :
    resolveGraphEndpoint nodes endpoint = (resolveEndpoint nodes endpoint).map Prod.fst := by
  obtain ⟨ref, leafId⟩ := endpoint
  unfold resolveGraphEndpoint resolveEndpoint
  cases leafId with
  | none =>
    have hmatches : (endpointMatches nodes ⟨ref, none⟩).map Prod.fst =
        nodes.filter fun node => node.ref = ref := by
      rw [← map_fst_filter_zipIdx]
      simp [endpointMatches]
    dsimp only
    rw [← hmatches]
    rcases endpointMatches nodes ⟨ref, none⟩ with _ | ⟨a, _ | ⟨b, rest⟩⟩ <;> rfl
  | some leaf =>
    have hmatches : (endpointMatches nodes ⟨ref, some leaf⟩).map Prod.fst =
        (nodes.filter fun node => node.ref = ref).filter fun node => leaf ∈ node.leafIds := by
      rw [List.filter_filter, ← map_fst_filter_zipIdx]
      simp [endpointMatches, Bool.and_comm]
    dsimp only
    rw [← hmatches]
    rcases endpointMatches nodes ⟨ref, some leaf⟩ with _ | ⟨a, _ | ⟨b, rest⟩⟩ <;> rfl

theorem resolveEdges_index (edges : List SprintExecutionEdge) :
    EndpointIndex.resolveEdges ⟨nodesByRef nodes, Keyed.grouped (leafPlaces nodes)⟩ edges =
      resolveEdges nodes edges := by
  have hedge : EndpointIndex.resolveEdge
      ⟨nodesByRef nodes, Keyed.grouped (leafPlaces nodes)⟩ = resolveEdge nodes := by
    funext edge
    unfold EndpointIndex.resolveEdge resolveEdge
    rw [resolveEndpoint_index, resolveEndpoint_index]
    cases resolveEndpoint nodes edge.predecessor with
    | error refusal => rfl
    | ok p =>
      cases resolveEndpoint nodes edge.successor with
      | error refusal => rfl
      | ok q => rfl
  unfold EndpointIndex.resolveEdges resolveEdges
  rw [hedge]

/-- What the validation runs through. -/
theorem validateGraph_eq_ok {edges : List SprintExecutionEdge}
    {analysis : ExecutionGraphAnalysis} :
    validateGraph nodes edges = .ok analysis ↔ nodes.Nodup ∧ LumpOrSegments nodes ∧
      (nodes.flatMap SprintExecutionNode.leafIds).Nodup ∧
      resolveEdges nodes edges = .ok analysis.resolvedEdgeIndexes ∧
      deriveWaves nodes analysis.resolvedEdgeIndexes = .ok analysis.waves := by
  unfold validateGraph
  by_cases hnodup : nodes.Nodup
  · simp only [hnodup, decide_true, Bool.not_true, Bool.false_eq_true, if_false, true_and]
    constructor
    · intro h
      obtain ⟨index, hindex, h⟩ := bind_eq_ok.mp h
      obtain ⟨howned, honce, rfl⟩ := (buildEndpointIndex_eq_ok hnodup).mp hindex
      rw [resolveEdges_index] at h
      obtain ⟨resolved, hresolved, h⟩ := bind_eq_ok.mp h
      obtain ⟨waves, hwaves, h⟩ := bind_eq_ok.mp h
      cases h
      exact ⟨howned, honce, hresolved, hwaves⟩
    · rintro ⟨howned, honce, hresolved, hwaves⟩
      refine bind_eq_ok.mpr ⟨_, (buildEndpointIndex_eq_ok hnodup).mpr ⟨howned, honce, rfl⟩, ?_⟩
      rw [resolveEdges_index]
      exact bind_eq_ok.mpr ⟨_, hresolved, bind_eq_ok.mpr ⟨_, hwaves, rfl⟩⟩
  · simp [hnodup, bind, Except.bind]

/-! ## The admission that searches the nodes -/

theorem checkLumps_eq_ok (hnodup : nodes.Nodup) : checkLumps nodes = .ok () ↔ LumpOrSegments nodes := by
  have hany : ∀ ref, (nodes.any fun node => node.ref = ref && node.kind = .master) = true ↔
      ∃ lump ∈ nodes, lump.ref = ref ∧ lump.kind = .master := by
    intro ref
    simp
  unfold checkLumps
  rw [forM_eq_ok, lumpOrSegments_iff hnodup]
  constructor
  · rintro h ref ⟨hseveral, lump, hlump, rfl, hkind⟩
    have hok := h lump.ref (List.mem_eraseDups.mpr (List.mem_map_of_mem hlump))
    rw [if_pos ⟨hseveral, (hany _).mpr ⟨lump, hlump, rfl, hkind⟩⟩] at hok
    cases hok
  · intro h ref _
    exact if_neg fun hboth => h ref ⟨hboth.1, (hany ref).mp hboth.2⟩

theorem checkLeafs_eq_ok {placed leafs : List (String × TaskDocumentRef)} :
    checkLeafs placed leafs = .ok () ↔
      (∀ leaf ∈ leafs.map Prod.fst, leaf ∉ placed.map Prod.fst) ∧
        (leafs.map Prod.fst).Nodup := by
  induction leafs generalizing placed with
  | nil => simp [checkLeafs]
  | cons e rest ih =>
    obtain ⟨leaf, ref⟩ := e
    rw [checkLeafs, List.map_cons, fresh_cons_iff]
    cases howner : placed.lookup leaf with
    | some owner =>
      have hin : leaf ∈ placed.map Prod.fst := by
        rw [← Keyed.lookup_isSome_iff, howner]
        rfl
      simp [hin]
    | none =>
      have hout : leaf ∉ placed.map Prod.fst := by
        rw [← Keyed.lookup_isSome_iff, howner]
        simp
      dsimp only
      rw [ih, List.map_append]
      simp only [hout, not_false_eq_true, true_and]
      rfl

/-- The two admissions accept the same graphs, with the same analysis. -/
theorem validateExecutionGraph_eq_ok {edges : List SprintExecutionEdge}
    {analysis : ExecutionGraphAnalysis} :
    validateExecutionGraph nodes edges = .ok analysis ↔ validateGraph nodes edges = .ok analysis := by
  have hleafs : (nodes.flatMap fun node => node.leafIds.map fun leaf => (leaf, node.ref)).map
      Prod.fst = nodes.flatMap SprintExecutionNode.leafIds := by
    rw [List.map_flatMap]
    apply List.flatMap_congr
    intro node _
    rw [List.map_map]
    exact List.map_id _
  rw [validateGraph_eq_ok]
  unfold validateExecutionGraph
  by_cases hnodup : nodes.Nodup
  · simp only [hnodup, decide_true, Bool.not_true, Bool.false_eq_true, if_false, true_and]
    constructor
    · intro h
      obtain ⟨_, howned, h⟩ := bind_eq_ok.mp h
      obtain ⟨_, honce, h⟩ := bind_eq_ok.mp h
      obtain ⟨resolved, hresolved, h⟩ := bind_eq_ok.mp h
      obtain ⟨waves, hwaves, h⟩ := bind_eq_ok.mp h
      cases h
      have hplaced := (checkLeafs_eq_ok.mp honce).2
      rw [hleafs] at hplaced
      exact ⟨(checkLumps_eq_ok hnodup).mp howned, hplaced, hresolved, hwaves⟩
    · rintro ⟨howned, honce, hresolved, hwaves⟩
      rw [← hleafs] at honce
      exact bind_eq_ok.mpr ⟨(), (checkLumps_eq_ok hnodup).mpr howned, bind_eq_ok.mpr
        ⟨(), checkLeafs_eq_ok.mpr ⟨fun _ _ => List.not_mem_nil, honce⟩, bind_eq_ok.mpr ⟨_, hresolved, bind_eq_ok.mpr ⟨_, hwaves, rfl⟩⟩⟩⟩
  · simp [hnodup, bind, Except.bind]

end index

end AgentsRemember.Queue
