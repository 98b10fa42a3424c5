import AgentsRemember.Citations.Sources

/-!
# Citations — Router

The cheap routing in front of the semantic comparison. A path is proven
unchanged when it is clean in the working tree, tracked at HEAD and the same
object at the verified commit; a Git failure is an error, never a vote for
unchanged.
-/

namespace AgentsRemember.Citations

/-- The path is in the delta of the working tree. -/
def Repository.workingDelta (repository : Repository) (path : String) : Bool :=
  repository.working path != repository.head path

/-- The file is another one than at the commit. -/
def Repository.historicalDelta (repository : Repository) (commit path : String) : Bool :=
  repository.commits commit path != repository.head path

/-- `RepositoryChanges.route`: whether the path is proven unchanged, and an error. -/
def Repository.route (repository : Repository) (commit path : String) : Bool × Option String :=
  match repository.statusFailure with
  | some e => (false, some e)
  | none =>
    if repository.workingDelta path then (false, none)
    else match repository.headFailure with
      | some e => (false, some e)
      | none =>
        if (repository.head path).isNone then (false, none)
        else match repository.deltaFailure commit with
          | some e => (false, some e)
          | none => if repository.historicalDelta commit path then (false, none) else (true, none)

/-- The citations by where they are found. -/
structure CitationPartition where
  localCitations : List LocalCitation := []
  dependencies : List Citation := []
  error : Option String := none

/-- One citation more. -/
def CitationPartition.add (partition : CitationPartition) (citation : Citation) :
    Option LocalCitation → CitationPartition
  | some source => { partition with localCitations := partition.localCitations ++ [source] }
  | none => { partition with dependencies := partition.dependencies ++ [citation] }

/-- The loop of `partition_citations`, which stops at the first error. -/
def partitionFrom (trees : Trees) (partition : CitationPartition) :
    List Citation → CitationPartition
  | [] => partition
  | citation :: citations =>
    match trees.classify citation with
    | .error e => { partition with error := some e }
    | .ok source => partitionFrom trees (partition.add citation source) citations

/-- The citations, parted in order. -/
def partitionCitations (trees : Trees) (citations : List Citation) : CitationPartition :=
  partitionFrom trees {} citations

/-- A citation of neither repository. -/
def Trees.isDependency (trees : Trees) (citation : Citation) : Bool :=
  match trees.classify citation with
  | .ok none => true
  | _ => false

/-- What the router says of a claim. -/
inductive RouteStatus where
  | provenUnchanged | semanticRequired
  | error (message : String)
deriving DecidableEq

/-- The route of a claim, with its citations. -/
structure ClaimRoute where
  localCitations : List LocalCitation
  dependencies : List Citation
  status : RouteStatus

section router
variable (trees : Trees) (history : MemoryHistory) (codeCommit : String)

/-- `_route_source` -/
def routeSource (source : LocalCitation) : Bool × Option String :=
  match source.repository with
  | .code => trees.code.route codeCommit source.citation.path
  | .memory =>
    match history.memoryCommit codeCommit with
    | .error e =>
      (false, some (if e = "" then "memory history mapping is unavailable" else e))
    | .ok commit => trees.memory.route commit source.citation.path

/-- The status of a claim by what its sources route to. -/
def routeStatus (routes : List (Bool × Option String)) : RouteStatus :=
  let errors := routes.filterMap Prod.snd
  if errors ≠ [] then .error ("; ".intercalate errors.eraseDups)
  else if routes.all Prod.fst then .provenUnchanged
  else .semanticRequired

/-- `ClaimChangeRouter.route_claim` -/
def routeClaim (citations : List Citation) : ClaimRoute :=
  let partition := partitionCitations trees citations
  match partition.error with
  | some e => ⟨partition.localCitations, partition.dependencies, .error e⟩
  | none => ⟨partition.localCitations, partition.dependencies,
      routeStatus (partition.localCitations.map (routeSource trees history codeCommit))⟩

end router

/-! ## What a route says -/

section routes
variable {trees : Trees} {history : MemoryHistory} {codeCommit : String}

/-- A path that is proven unchanged is one object at the commit, at HEAD and in the
working tree. -/
theorem Repository.route_unchanged {repository : Repository} {commit path : String}
    (h : (repository.route commit path).1 = true) : ∃ bytes,
    repository.working path = some bytes ∧ repository.commits commit path = some bytes := by
  unfold Repository.route at h
  split at h
  · cases h
  split at h
  · cases h
  next hworking =>
    split at h
    · cases h
    split at h
    · cases h
    next hhead =>
      split at h
      · cases h
      split at h
      · cases h
      next hhistorical =>
        rw [Option.isNone_iff_eq_none] at hhead
        obtain ⟨bytes, hbytes⟩ := Option.ne_none_iff_exists'.mp hhead
        simp only [Repository.workingDelta, bne_iff_ne, ne_eq, not_not] at hworking
        simp only [Repository.historicalDelta, bne_iff_ne, ne_eq, not_not] at hhistorical
        exact ⟨bytes, hworking.trans hbytes, hhistorical.trans hbytes⟩

/-- No read of the router fails. -/
structure Repository.Readable (repository : Repository) : Prop where
  status : repository.statusFailure = none
  head : repository.headFailure = none
  delta : ∀ commit, repository.deltaFailure commit = none

theorem Repository.Readable.route {repository : Repository} (h : repository.Readable)
    (commit path : String) : (repository.route commit path).2 = none := by
  unfold Repository.route
  rw [h.status, h.head, h.delta]
  dsimp only
  split
  · rfl
  split
  · rfl
  split <;> rfl

theorem routeStatus_unchanged {routes : List (Bool × Option String)}
    (h : routeStatus routes = .provenUnchanged) : ∀ route ∈ routes, route.1 = true := by
  unfold routeStatus at h
  dsimp only at h
  split at h
  · cases h
  split at h
  next hall => exact List.all_eq_true.mp hall
  · cases h

theorem routeStatus_error {routes : List (Bool × Option String)} {e : String}
    (h : routeStatus routes = .error e) : ∃ route ∈ routes, ∃ error, route.2 = some error := by
  unfold routeStatus at h
  dsimp only at h
  split at h
  next herrors =>
    obtain ⟨error, hmem⟩ := List.exists_mem_of_ne_nil _ herrors
    obtain ⟨route, hroute, hsnd⟩ := List.mem_filterMap.mp hmem
    exact ⟨route, hroute, error, hsnd⟩
  · split at h <;> cases h

theorem classify_citation {citation : Citation} {source : LocalCitation}
    (h : trees.classify citation = .ok (some source)) : source.citation = citation := by
  unfold Trees.classify at h
  split at h
  · cases h; rfl
  · dsimp only at h
    split at h
    · cases h; rfl
    split at h
    · cases h; rfl
    split at h <;> cases h

/-- How the citations fall to the two repositories, to the dependencies and to errors. -/
theorem partitionFrom_spec (trees : Trees) (citations : List Citation)
    (partition : CitationPartition) :
    (∃ e, (partitionFrom trees partition citations).error = some e ∧
      ∃ citation ∈ citations, trees.classify citation = .error e) ∨
    (∃ sources : List LocalCitation, partitionFrom trees partition citations =
        { partition with
          localCitations := partition.localCitations ++ sources
          dependencies := partition.dependencies ++ citations.filter trees.isDependency } ∧
      sources.map (·.citation) = citations.filter (!trees.isDependency ·) ∧
      ∀ source ∈ sources, trees.classify source.citation = .ok (some source)) := by
  induction citations generalizing partition with
  | nil => exact .inr ⟨[], by simp [partitionFrom], rfl, fun _ hnil => nomatch hnil⟩
  | cons citation citations ih =>
    unfold partitionFrom
    cases hclass : trees.classify citation with
    | error e => exact .inl ⟨e, rfl, citation, List.mem_cons_self, hclass⟩
    | ok found =>
      dsimp only
      obtain ⟨e, he, other, hother, hbad⟩ | ⟨sources, hfrom, hmap, hsources⟩ :=
        ih (partition.add citation found)
      · exact .inl ⟨e, he, other, List.mem_cons_of_mem _ hother, hbad⟩
      right
      cases found with
      | none =>
        have hdep : trees.isDependency citation = true := by simp [Trees.isDependency, hclass]
        refine ⟨sources, ?_, by simp [hdep, hmap], hsources⟩
        rw [hfrom]
        simp [CitationPartition.add, hdep]
      | some source =>
        have hdep : trees.isDependency citation = false := by simp [Trees.isDependency, hclass]
        have hcitation := classify_citation hclass
        refine ⟨source :: sources, ?_, by simp [hdep, hmap, hcitation], fun other hother => ?_⟩
        · rw [hfrom]
          simp [CitationPartition.add, hdep]
        · rcases List.mem_cons.mp hother with rfl | hother
          · rw [hcitation]
            exact hclass
          · exact hsources other hother

end routes

end AgentsRemember.Citations
