import AgentsRemember.Citations.Reopen

/-!
# Citations — Agreement

The evaluation behind the router against the full comparison. Where the router
asks for the comparison, the two are the same computation. Where it proves every
path unchanged, the revisions are equal, so that an anchor has the same candidates
before and now; the two agree where this leaves nothing to report. Where routing
fails, the claim is reported as invalid, or held back while its mapping is pending.
-/

namespace AgentsRemember.Citations

section agreement
variable {τ : Type} {evaluation : Evaluation τ} {claim : Claim}

/-! ## What is gathered -/

theorem source_of_dependency {citation : Citation}
    (h : evaluation.trees.isDependency citation = true) : evaluation.source citation = .ok none := by
  unfold Trees.isDependency at h
  unfold Evaluation.source
  split at h
  next hclass => rw [hclass]
  · cases h

/-- A dependency has no error and no source. -/
theorem errors_filter (citations : List Citation) :
    evaluation.errors (citations.filter (!evaluation.trees.isDependency ·)) =
      evaluation.errors citations := by
  unfold Evaluation.errors
  rw [List.filterMap_filter]
  apply List.filterMap_congr
  intro citation _
  cases hdep : evaluation.trees.isDependency citation with
  | false => simp
  | true => simp [source_of_dependency hdep]

theorem sources_filter (citations : List Citation) :
    evaluation.sources (citations.filter (!evaluation.trees.isDependency ·)) =
      evaluation.sources citations := by
  unfold Evaluation.sources
  rw [List.filterMap_filter]
  apply List.filterMap_congr
  intro citation _
  cases hdep : evaluation.trees.isDependency citation with
  | false => simp
  | true => simp [source_of_dependency hdep]

/-- A claim is routed with an error of its citations, or by its local sources. -/
theorem route_spec (evaluation : Evaluation τ) (claim : Claim) :
    (∃ e, (evaluation.route claim).status = .error e ∧
      ∃ citation ∈ claim.citations, evaluation.trees.classify citation = .error e) ∨
    (∃ sources : List LocalCitation,
      evaluation.route claim = ⟨sources, claim.citations.filter evaluation.trees.isDependency,
        routeStatus (sources.map
          (routeSource evaluation.trees evaluation.history evaluation.codeCommit))⟩ ∧
      sources.map (·.citation) = claim.citations.filter (!evaluation.trees.isDependency ·) ∧
      ∀ source ∈ sources, evaluation.trees.classify source.citation = .ok (some source)) := by
  unfold Evaluation.route routeClaim partitionCitations
  obtain ⟨e, he, hbad⟩ | ⟨sources, hfrom, hmap, hsources⟩ :=
    partitionFrom_spec evaluation.trees claim.citations {}
  · left
    refine ⟨e, ?_, hbad⟩
    dsimp only
    rw [he]
  · right
    refine ⟨sources, ?_, hmap, hsources⟩
    rw [hfrom]
    rfl

/-! ## The comparison is asked for -/

theorem evaluateClaim_semantic (h : (evaluation.route claim).status = .semanticRequired) :
    evaluation.evaluateClaim claim = evaluation.compareEvery claim := by
  obtain ⟨e, he, -⟩ | ⟨sources, hroute, hmap, -⟩ := route_spec evaluation claim
  · rw [he] at h
    cases h
  · unfold Evaluation.evaluateClaim
    dsimp only
    rw [h]
    dsimp only
    rw [hroute]
    dsimp only
    rw [hmap]
    unfold Evaluation.compareEvery Evaluation.compare
    rw [errors_filter, sources_filter]

/-! ## Every path is unchanged -/

theorem resolve_code {trees : Trees} {path : String} {bytes : Bytes}
    (h : trees.code.working path = some bytes) : trees.resolve path = some (.code, bytes) := by
  simp [Trees.resolve, h]

/-- What `classify` says of where a source is found. -/
theorem classify_target {trees : Trees} {source : LocalCitation}
    (h : trees.classify source.citation = .ok (some source)) :
    (∃ kind bytes, trees.resolve source.citation.path = some (kind, bytes) ∧
      source.repository = kind ∧ source.target = some bytes) ∨
    (trees.resolve source.citation.path = none ∧ source.target = none) := by
  unfold Trees.classify at h
  split at h
  next kind bytes hresolve =>
    left
    refine ⟨kind, bytes, hresolve, ?_⟩
    injection h with h
    injection h with h
    rw [← h]
    exact ⟨rfl, rfl⟩
  next hresolve =>
    right
    refine ⟨hresolve, ?_⟩
    dsimp only at h
    split at h
    · injection h with h
      injection h with h
      rw [← h]
    split at h
    · injection h with h
      injection h with h
      rw [← h]
    split at h <;> cases h

/-- A file of the memory repository stands in its working tree. -/
theorem working_of_memory {trees : Trees} {path : String} {bytes : Bytes}
    (h : trees.resolve path = some (.memory, bytes)) : trees.memory.working path = some bytes := by
  unfold Trees.resolve at h
  split at h
  · cases h
  · obtain ⟨found, hfound, heq⟩ := Option.map_eq_some_iff.mp h
    injection heq with _ hbytes
    rw [hfound, hbytes]

/-- Where a file of the memory repository is, nothing of the code repository is. -/
theorem resolve_memory {trees : Trees} {path : String} {bytes : Bytes}
    (h : trees.memory.working path = some bytes) : trees.resolve path ≠ none := by
  unfold Trees.resolve
  split
  · simp
  · simp [h]

/-- A source that is routed as unchanged is read without an error, and both of its
revisions are the bytes that its path resolves to. -/
theorem source_of_unchanged {source : LocalCitation}
    (hclass : evaluation.trees.classify source.citation = .ok (some source))
    (hroute : (routeSource evaluation.trees evaluation.history evaluation.codeCommit source).1 =
      true) : ∃ found kind bytes, evaluation.source source.citation = .ok (some found) ∧
        evaluation.trees.resolve source.citation.path = some (kind, bytes) ∧
        found.current = some (evaluation.reader.working bytes) ∧
        found.historical = some (evaluation.reader.committed bytes) := by
  unfold Evaluation.source
  rw [hclass]
  dsimp only
  unfold routeSource at hroute
  cases hkind : source.repository with
  | code =>
    rw [hkind] at hroute
    dsimp only at hroute
    obtain ⟨bytes, hworking, hcommit⟩ := Repository.route_unchanged hroute
    have hresolve := resolve_code hworking
    obtain ⟨kind, found, hfound, -, htarget⟩ | ⟨hnone, -⟩ := classify_target hclass
    · cases hresolve.symm.trans hfound
      refine ⟨_, .code, bytes, rfl, hresolve, ?_, ?_⟩
      · rw [htarget]
        rfl
      · simp [Evaluation.codeSource, Repository.file, hcommit, Except.toOption]
    · rw [hresolve] at hnone
      cases hnone
  | memory =>
    rw [hkind] at hroute
    dsimp only at hroute ⊢
    unfold Evaluation.memorySource
    cases hcommit : evaluation.history.memoryCommit evaluation.codeCommit with
    | error e =>
      rw [hcommit] at hroute
      cases hroute
    | ok commit =>
      rw [hcommit] at hroute
      dsimp only at hroute ⊢
      obtain ⟨bytes, hworking, hfile⟩ := Repository.route_unchanged hroute
      obtain ⟨kind, found, hresolve, hrepository, htarget⟩ | ⟨hresolve, -⟩ := classify_target hclass
      · rw [hkind] at hrepository
        subst hrepository
        have hsame : bytes = found :=
          Option.some.inj (hworking.symm.trans (working_of_memory hresolve))
        subst hsame
        simp only [Repository.file, hfile]
        refine ⟨_, .memory, bytes, rfl, hresolve, ?_, rfl⟩
        rw [htarget]
        rfl
      · exact absurd hresolve (resolve_memory hworking)

/-- On revisions that read alike an anchor has the same candidates before and now. -/
theorem selected_unchanged {reader : SourceReader τ} {anchor : Anchor}
    {sources : List (LocalSource τ)} (h : ∀ source ∈ sources, source.historical = source.current) :
    reader.selected anchor sources true = reader.selected anchor sources false := by
  have hcandidates : (sources.flatMap fun source => reader.candidates anchor source true) =
      sources.flatMap fun source => reader.candidates anchor source false := by
    apply List.flatMap_congr
    intro source hsource
    simp only [SourceReader.candidates, if_true, Bool.false_eq_true, if_false]
    rw [h source hsource]
  unfold SourceReader.selected
  rw [hcandidates]

/-- Two equal lists of candidates compare without a finding where there is just one, or
none while a dependency is cited. -/
theorem compareCandidates_same {anchor : Anchor} {sources : List (LocalSource τ)}
    {dependencySources : Bool} {candidates : List (Candidate τ)}
    (h : candidates.length = 1 ∨ (candidates = [] ∧ dependencySources = true)) :
    compareCandidates anchor sources dependencySources candidates candidates = {} := by
  obtain hone | ⟨rfl, hdependency⟩ := h
  · obtain ⟨candidate, rfl⟩ := List.length_eq_one_iff.mp hone
    simp [compareCandidates]
  · simp [compareCandidates, hdependency]

theorem foldl_append_empty {changes : List Changes} (h : ∀ change ∈ changes, change = {}) :
    changes.foldl Changes.append {} = {} := by
  induction changes with
  | nil => rfl
  | cons change changes ih =>
    rw [List.foldl_cons, h change List.mem_cons_self]
    exact ih fun other hother => h other (List.mem_cons_of_mem _ hother)

/-- The anchors of a claim stand just once in what it cites, or nowhere while it cites a
dependency, and what it cites reads the same from a commit as from the working tree. -/
structure Evaluation.Settled (evaluation : Evaluation τ) (claim : Claim) : Prop where
  alike : ∀ citation ∈ claim.citations, ∀ kind bytes,
    evaluation.trees.resolve citation.path = some (kind, bytes) →
      evaluation.reader.committed bytes = evaluation.reader.working bytes
  unique : ∀ anchor ∈ claim.anchors,
    (evaluation.reader.selected anchor (evaluation.sources claim.citations) false).length = 1 ∨
      (evaluation.reader.selected anchor (evaluation.sources claim.citations) false = [] ∧
        ∃ citation ∈ claim.citations, evaluation.trees.isDependency citation = true)

theorem localChanges_settled {reader : SourceReader τ} {anchors : List Anchor}
    {sources : List (LocalSource τ)} {dependencySources : Bool}
    (halike : ∀ source ∈ sources, source.current.isNone = false ∧
      source.historical = source.current)
    (hunique : ∀ anchor ∈ anchors, (reader.selected anchor sources false).length = 1 ∨
      (reader.selected anchor sources false = [] ∧ dependencySources = true)) :
    reader.localChanges anchors sources dependencySources = {} := by
  have hpresent : ¬(sources.any (·.current.isNone)) = true := by
    rw [List.any_eq_true]
    rintro ⟨source, hsource, hnone⟩
    rw [(halike source hsource).1] at hnone
    cases hnone
  unfold SourceReader.localChanges
  rw [if_neg hpresent]
  apply foldl_append_empty
  intro change hchange
  obtain ⟨anchor, hanchor, rfl⟩ := List.mem_map.mp hchange
  unfold SourceReader.anchorChange
  rw [selected_unchanged fun source hsource => (halike source hsource).2]
  exact compareCandidates_same (hunique anchor hanchor)

theorem evaluateClaim_unchanged (h : (evaluation.route claim).status = .provenUnchanged)
    (hsettled : evaluation.Settled claim) :
    evaluation.evaluateClaim claim = evaluation.compareEvery claim := by
  obtain ⟨e, he, -⟩ | ⟨sources, hroute, hmap, hsources⟩ := route_spec evaluation claim
  · rw [he] at h
    cases h
  have hstatus : routeStatus (sources.map
      (routeSource evaluation.trees evaluation.history evaluation.codeCommit)) =
        .provenUnchanged := by
    rw [hroute] at h
    exact h
  -- every local source is the same file in both revisions
  have hread : ∀ citation ∈ claim.citations.filter (!evaluation.trees.isDependency ·),
      ∃ found lines, evaluation.source citation = .ok (some found) ∧
        found.current = some lines ∧ found.historical = some lines := by
    intro citation hcitation
    have hmem := (List.mem_filter.mp hcitation).1
    rw [← hmap] at hcitation
    obtain ⟨source, hsource, rfl⟩ := List.mem_map.mp hcitation
    obtain ⟨found, kind, bytes, hfound, hresolve, hcurrent, hhistorical⟩ :=
      source_of_unchanged (hsources source hsource)
        (routeStatus_unchanged hstatus _ (List.mem_map_of_mem hsource))
    rw [hsettled.alike source.citation hmem kind bytes hresolve] at hhistorical
    exact ⟨found, _, hfound, hcurrent, hhistorical⟩
  have herrors : evaluation.errors claim.citations = [] := by
    rw [← errors_filter, Evaluation.errors, List.filterMap_eq_nil_iff]
    intro citation hcitation
    obtain ⟨found, lines, hfound, -⟩ := hread citation hcitation
    rw [hfound]
  have halike : ∀ found ∈ evaluation.sources claim.citations,
      found.current.isNone = false ∧ found.historical = found.current := by
    intro found hmem
    rw [← sources_filter, Evaluation.sources, List.mem_filterMap] at hmem
    obtain ⟨citation, hcitation, hsome⟩ := hmem
    obtain ⟨source, lines, hsource, hcurrent, hhistorical⟩ := hread citation hcitation
    rw [hsource] at hsome
    cases hsome
    exact ⟨by simp [hcurrent], hhistorical.trans hcurrent.symm⟩
  have hunique : ∀ anchor ∈ claim.anchors, (evaluation.reader.selected anchor
      (evaluation.sources claim.citations) false).length = 1 ∨
        (evaluation.reader.selected anchor (evaluation.sources claim.citations) false = [] ∧
          decide (claim.citations.filter evaluation.trees.isDependency ≠ []) = true) := by
    intro anchor hanchor
    obtain hone | ⟨hnone, citation, hcitation, hdependency⟩ := hsettled.unique anchor hanchor
    · exact .inl hone
    · refine .inr ⟨hnone, decide_eq_true (List.ne_nil_of_mem (a := citation) ?_)⟩
      exact List.mem_filter.mpr ⟨hcitation, hdependency⟩
  have hcompared := localChanges_settled halike hunique
  unfold Evaluation.evaluateClaim
  dsimp only
  rw [h]
  dsimp only
  rw [hroute]
  dsimp only
  unfold Evaluation.compareEvery Evaluation.compare
  have hnothing : evaluation.sources ([] : List Citation) = [] := rfl
  have hnoErrors : evaluation.errors ([] : List Citation) = [] := rfl
  dsimp only
  rw [hnothing, hnoErrors, herrors, hcompared, if_pos rfl, ite_self]

/-! ## Routing fails -/

theorem mem_errors {citation : Citation} {citations : List Citation} {e : String}
    (hcitation : citation ∈ citations) (h : evaluation.source citation = .error e) (hne : e ≠ "") :
    evaluation.errors citations ≠ [] := by
  have hmem : e ∈ evaluation.errors citations := by
    unfold Evaluation.errors
    rw [List.mem_filterMap]
    exact ⟨citation, hcitation, by rw [h]; simp [hne]⟩
  exact List.ne_nil_of_mem hmem

/-- A route fails on an error that the comparison meets as well, unless Git fails the router. -/
theorem errors_of_route {e : String} (hcode : evaluation.trees.code.Readable)
    (hmemory : evaluation.trees.memory.Readable)
    (h : (evaluation.route claim).status = .error e) :
    evaluation.errors claim.citations ≠ [] := by
  obtain ⟨bad, _, citation, hcitation, hclass⟩ | ⟨sources, hroute, hmap, hsources⟩ :=
    route_spec evaluation claim
  · refine mem_errors hcitation ?_ (classify_error hclass)
    simp [Evaluation.source, hclass]
  · rw [hroute] at h
    obtain ⟨route, hmem, error, herror⟩ := routeStatus_error h
    obtain ⟨source, hsource, rfl⟩ := List.mem_map.mp hmem
    have hclass := hsources source hsource
    have hcitation : source.citation ∈ claim.citations := by
      have hmapped : source.citation ∈ sources.map (·.citation) := List.mem_map_of_mem hsource
      rw [hmap] at hmapped
      exact (List.mem_filter.mp hmapped).1
    unfold routeSource at herror
    cases hkind : source.repository with
    | code =>
      rw [hkind] at herror
      rw [hcode.route] at herror
      cases herror
    | memory =>
      rw [hkind] at herror
      dsimp only at herror
      cases hcommit : evaluation.history.memoryCommit evaluation.codeCommit with
      | ok commit =>
        rw [hcommit] at herror
        rw [hmemory.route] at herror
        cases herror
      | error e' =>
        refine mem_errors hcitation ?_ (memoryCommit_error hcommit)
        simp only [Evaluation.source, hclass, hkind, Evaluation.memorySource, hcommit]
        rfl

theorem compare_invalid {citations dependencies : List Citation}
    (h : evaluation.errors citations ≠ []) :
    (evaluation.compare claim citations dependencies).map Finding.kind = some .invalid := by
  have hinvalid : ∀ a b : Changes,
      ((({ invalid := evaluation.errors citations } : Changes).append a).append b).invalid ≠ [] := by
    intro a b
    obtain ⟨e, herrors⟩ := List.exists_mem_of_ne_nil _ h
    apply List.ne_nil_of_mem (a := e)
    exact List.mem_append_left _ (List.mem_append_left _ herrors)
  unfold Evaluation.compare Changes.finding
  dsimp only
  rw [if_pos (hinvalid _ _)]
  rfl

/-- How the evaluation behind the router stands to the full comparison. -/
theorem routing_agrees (evaluation : Evaluation τ) (claim : Claim) :
    ((evaluation.route claim).status = .semanticRequired →
      evaluation.evaluateClaim claim = evaluation.compareEvery claim) ∧
    ((evaluation.route claim).status = .provenUnchanged → evaluation.Settled claim →
      evaluation.evaluateClaim claim = evaluation.compareEvery claim) ∧
    (∀ e, (evaluation.route claim).status = .error e →
      evaluation.evaluateClaim claim = (if evaluation.mappingPending e then none else
        some (.invalid ("exact-path change routing failed: " ++ e))) ∧
      (evaluation.trees.code.Readable → evaluation.trees.memory.Readable →
        (evaluation.compareEvery claim).map Finding.kind = some .invalid)) := by
  refine ⟨evaluateClaim_semantic, evaluateClaim_unchanged, fun e he => ⟨?_, ?_⟩⟩
  · unfold Evaluation.evaluateClaim
    dsimp only
    rw [he]
  · intro hcode hmemory
    exact compare_invalid (errors_of_route hcode hmemory he)

end agreement

/-! ## On fixed inputs -/

section instances

/-- A repository whose commits, HEAD and working tree are the same. -/
def steady (tree : Tree) (entries : String → Bool) : Repository where
  working := tree
  head := tree
  commits := fun _ => tree
  entries := entries

/-- Plain text: an anchor stands on each line that is its text. -/
def plainReader : SourceReader (List Bytes) where
  committed := fun bytes => bytes.splitOn 10
  working := fun bytes => bytes.splitOn 10
  extents := fun _ lines anchor => (lines.zipIdx.filter fun line =>
    decide (line.1 = anchor.text.toList.map fun c => c.toNat.toUInt8)).map fun line =>
      ⟨line.2 + 1, line.2 + 1, .occurrence⟩
  fingerprint := fun _ _ anchor _ => anchor.text

/-- One file of the lines `a`, `b` and `a`, committed in both repositories under two names. -/
def steadyEvaluation : Evaluation (List Bytes) where
  codeCommit := "c1"
  trees := {
    code := steady (fun path => if path = "notes.txt" then some [97, 10, 98, 10, 97] else none)
      fun entry => entry == "notes.txt"
    memory := steady (fun path => if path = "card.md" then some [97, 10, 98] else none)
      fun entry => entry == "card.md" }
  history := { mappings := .ok [⟨"c0", "m0"⟩], revParse := .ok, reachable := fun _ => true }
  reader := plainReader
  versions := fun _ _ => ⟨none, none, none⟩
  head := some "c1"
  isAncestor := fun _ _ => true

/-- A claim with one symbol and one cited line. -/
def cited (path anchor : String) : Claim where
  line := 3
  anchors := [⟨.symbol, anchor⟩]
  citations := [⟨path ++ ":1-1", path, 1, 1⟩]

/-- `b` stands once in an unchanged file. -/
theorem routing_agrees_steady :
    (steadyEvaluation.route (cited "notes.txt" "b")).status = .provenUnchanged ∧
      steadyEvaluation.evaluateClaim (cited "notes.txt" "b") =
        steadyEvaluation.compareEvery (cited "notes.txt" "b") := by
  have hroute : (steadyEvaluation.route (cited "notes.txt" "b")).status = .provenUnchanged := by
    decide +kernel
  have hsettled : steadyEvaluation.Settled (cited "notes.txt" "b") := by
    refine ⟨fun _ _ _ _ _ => rfl, fun anchor hanchor => .inl ?_⟩
    cases List.mem_singleton.mp hanchor
    decide +kernel
  exact ⟨hroute, (routing_agrees steadyEvaluation (cited "notes.txt" "b")).2.1 hroute hsettled⟩

/-- The memory of HEAD is still to be published, and the claim is held back; `a` stands
twice in an unchanged file, and nothing is reported. -/
theorem routing_differs :
    (¬∀ (evaluation : Evaluation (List Bytes)) claim,
      (evaluation.evaluateClaim claim).map Finding.kind =
        (evaluation.compareEvery claim).map Finding.kind) ∧
    steadyEvaluation.evaluateClaim (cited "card.md" "a") = none ∧
    (steadyEvaluation.compareEvery (cited "card.md" "a")).map Finding.kind = some .invalid ∧
    steadyEvaluation.evaluateClaim (cited "notes.txt" "a") = none ∧
    (steadyEvaluation.compareEvery (cited "notes.txt" "a")).map Finding.kind = some .invalid := by
  have hheld : steadyEvaluation.evaluateClaim (cited "card.md" "a") = none := by decide +kernel
  have hinvalid : (steadyEvaluation.compareEvery (cited "card.md" "a")).map Finding.kind =
      some .invalid := by decide +kernel
  refine ⟨fun hall => ?_, hheld, hinvalid, by decide +kernel, by decide +kernel⟩
  have hsame := hall steadyEvaluation (cited "card.md" "a")
  rw [hheld, hinvalid] at hsame
  cases hsame

end instances

end AgentsRemember.Citations
