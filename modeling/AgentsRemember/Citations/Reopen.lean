import AgentsRemember.Citations.Router
import AgentsRemember.Foundation.Keyed

/-!
# Citations — Reopen

The semantic comparison of a claim with its verified revision, and the
evaluation that puts the router in front of it. Where an anchor stands in a
revision, and what the construct there is, are functions of the path and the
revision alone. A revision is decoded in one way when it comes from a commit, and
in another when it comes from the working tree.
-/

namespace AgentsRemember.Citations

/-! ## Revisions -/

/-- How an extent was found. -/
inductive ExtentKind where
  | definition | occurrence | headed | quoted | call
deriving DecidableEq

/-- A range of lines that an anchor occupies. -/
structure Extent where
  start : Nat
  stop : Nat
  kind : ExtentKind
deriving DecidableEq

/-- How files are decoded and searched. -/
structure SourceReader (τ : Type) where
  committed : Bytes → τ
  working : Bytes → τ
  extents : String → τ → Anchor → List Extent
  fingerprint : String → τ → Anchor → Extent → String

/-- A cited file in both revisions. -/
structure LocalSource (τ : Type) where
  citation : Citation
  current : Option τ
  historical : Option τ
  provenanceLabel : String

/-- An extent of a cited file, with its fingerprint. -/
structure Candidate (τ : Type) where
  source : LocalSource τ
  extent : Extent
  fingerprint : String

/-- A locked version of a package. -/
structure LockedVersion where
  package : String
  version : String
  surface : String

/-- What the versions of a package were and are, and why one of them is not known. -/
structure DependencyVersions where
  before : Option LockedVersion
  now : Option LockedVersion
  error : Option String

/-- One gate run at the verified code commit. -/
structure Evaluation (τ : Type) where
  codeCommit : String
  trees : Trees
  history : MemoryHistory
  reader : SourceReader τ
  versions : String → String → DependencyVersions
  /-- The HEAD of the code repository, where it can be told. -/
  head : Option String
  isAncestor : String → String → Bool

section comparison
variable {τ : Type} (evaluation : Evaluation τ)

/-- `_code_source` -/
def Evaluation.codeSource (citation : Citation) (target : Option Bytes) : LocalSource τ where
  citation := citation
  current := target.map evaluation.reader.working
  historical := (evaluation.trees.code.file evaluation.codeCommit citation.path).toOption.map
    evaluation.reader.committed
  provenanceLabel := "code commit " ++ evaluation.codeCommit

/-- `_memory_source` -/
def Evaluation.memorySource (citation : Citation) (target : Option Bytes) :
    Except String (LocalSource τ) :=
  match evaluation.history.memoryCommit evaluation.codeCommit with
  | .error e => .error e
  | .ok commit =>
    match evaluation.trees.memory.file commit citation.path with
    | .error e => .error e
    | .ok bytes => .ok {
        citation := citation
        current := target.map evaluation.reader.working
        historical := some (evaluation.reader.committed bytes)
        provenanceLabel := "memory commit " ++ commit }

/-- `Evaluation.source`: a dependency has no source of its own. -/
def Evaluation.source (citation : Citation) : Except String (Option (LocalSource τ)) :=
  match evaluation.trees.classify citation with
  | .error e => .error e
  | .ok none => .ok none
  | .ok (some found) =>
    match found.repository with
    | .code => .ok (some (evaluation.codeSource citation found.target))
    | .memory => (evaluation.memorySource citation found.target).map some

/-! ## Anchors -/

/-- `SourceViews.candidates` -/
def SourceReader.candidates (reader : SourceReader τ) (anchor : Anchor) (source : LocalSource τ)
    (historical : Bool) : List (Candidate τ) :=
  match if historical then source.historical else source.current with
  | none => []
  | some lines => (reader.extents source.citation.path lines anchor).map fun extent =>
      ⟨source, extent, reader.fingerprint source.citation.path lines anchor extent⟩

/-- What a candidate is told by. -/
def Candidate.key (candidate : Candidate τ) : String × Nat × Nat × ExtentKind :=
  (candidate.source.citation.path, candidate.extent.start, candidate.extent.stop,
    candidate.extent.kind)

/-- `selected_historical` and `selected_current`: one candidate for each place. -/
def SourceReader.selected (reader : SourceReader τ) (anchor : Anchor)
    (sources : List (LocalSource τ)) (historical : Bool) : List (Candidate τ) :=
  (Keyed.dict ((sources.flatMap fun source => reader.candidates anchor source historical).map
    fun candidate => (candidate.key, candidate))).map Prod.snd

/-- The details of a comparison. -/
structure Changes where
  changed : List String := []
  surfaced : List String := []
  invalid : List String := []

/-- Some cited range still holds the declaration line of the construct. -/
def inCitedRange (candidate : Candidate τ) (sources : List (LocalSource τ)) : Bool :=
  sources.any fun source => decide (source.citation.start ≤ candidate.extent.start ∧
    candidate.extent.start ≤ source.citation.stop)

/-- A detail counts as surfaced where the citation is current, and as changed where not. -/
def currencyOf (candidate : Candidate τ) (sources : List (LocalSource τ)) (detail : String) :
    Changes :=
  if inCitedRange candidate sources then { surfaced := [detail] } else { changed := [detail] }

/-- The message of an anchor found more than once. -/
def resolvesNow (anchor : Anchor) (n : Nat) : String :=
  anchor.written ++ " resolves " ++ toString n ++ " times now; no exact candidate is unique"

/-- The message of an anchor that is gone. -/
def noLonger (anchor : Anchor) : String :=
  anchor.written ++ " no longer resolves in its cited current source(s)"

/-- What `anchor_change` makes of the candidates before and now. -/
def compareCandidates (anchor : Anchor) (sources : List (LocalSource τ))
    (dependencySources : Bool) (before now : List (Candidate τ)) : Changes :=
  match before, now with
  | [], [] => if dependencySources then {} else { changed := [noLonger anchor] }
  | [], [candidate] => currencyOf candidate sources
      (anchor.written ++ " did not exist at " ++
        ((sources.head?.map (·.provenanceLabel)).getD "") ++ " and resolves in the working tree")
  | [], now => { invalid := [resolvesNow anchor now.length] }
  | [_], [] => { changed := [noLonger anchor] }
  | [verified], [candidate] =>
    if verified.fingerprint = candidate.fingerprint then {}
    else currencyOf candidate sources (anchor.written ++ " changed structurally from " ++
      verified.source.provenanceLabel ++ " to the working tree")
  | [_], now => { invalid := [resolvesNow anchor now.length] }
  | before, _ => { invalid := [anchor.written ++ " resolved " ++ toString before.length ++
      " times at verification; exact historical resolution must be unique"] }

/-- What the comparison says of one anchor. -/
def SourceReader.anchorChange (reader : SourceReader τ) (sources : List (LocalSource τ))
    (dependencySources : Bool) (anchor : Anchor) : Changes :=
  compareCandidates anchor sources dependencySources (reader.selected anchor sources true)
    (reader.selected anchor sources false)

/-- The details of both. -/
def Changes.append (a b : Changes) : Changes :=
  ⟨a.changed ++ b.changed, a.surfaced ++ b.surfaced, a.invalid ++ b.invalid⟩

/-- The message of a source that is gone. -/
def missingDetail (source : LocalSource τ) : String :=
  if source.historical.isNone then
    source.citation.path ++ " did not exist at " ++ source.provenanceLabel ++
      " and does not exist in the working tree"
  else source.citation.path ++ " no longer exists in the working tree"

/-- `local_changes` -/
def SourceReader.localChanges (reader : SourceReader τ) (anchors : List Anchor)
    (sources : List (LocalSource τ)) (dependencySources : Bool) : Changes :=
  if sources.any (·.current.isNone) then
    { changed := ((sources.filter (·.current.isNone)).map missingDetail).mergeSort
        fun a b => decide (a ≤ b) }
  else (anchors.map (reader.anchorChange sources dependencySources)).foldl Changes.append {}

/-! ## Dependencies -/

/-- The suffix of the last component of a path, in lower case. -/
def pathSuffix (path : String) : String :=
  let name := (((path.toList.splitOn '/').filter fun part =>
    decide (part ≠ [] ∧ part ≠ ['.'])).getLast?).getD []
  let extension := name.reverse.takeWhile (· ≠ '.')
  match name.reverse.drop extension.length with
  | '.' :: _ :: _ => if extension = [] then "" else
      String.ofList ('.' :: extension.reverse.map Char.toLower)
  | _ => ""

/-- `PurePosixPath.name`. -/
def pathName (path : String) : String :=
  String.ofList ((((path.toList.splitOn '/').filter fun part =>
    decide (part ≠ [] ∧ part ≠ ['.'])).getLast?).getD [])

/-- The ecosystem a path belongs to. -/
def ecosystemFromPath (path : String) : Option String :=
  if pathSuffix path ∈ [".py", ".pyi"] then some "python"
  else if pathSuffix path ∈ [".js", ".jsx", ".mjs", ".cjs", ".ts", ".tsx", ".mts", ".cts"] ∨
      pathName path = "package.json" then some "npm"
  else none

/-- The package a path belongs to. -/
def packageFromPath (path : String) : String :=
  let parts := path.toList.splitOn '/'
  match path.toList, parts with
  | '@' :: _, scope :: name :: _ => String.ofList (scope ++ '/' :: name)
  | _, _ => String.ofList (parts.headD [])

/-- What the locked versions say. -/
def packageChange (package : String) (versions : DependencyVersions) : Changes :=
  match versions.before, versions.now with
  | some before, some now =>
    if (versions.error.getD "") ≠ "" then { invalid := [versions.error.getD ""] }
    else if before.version = now.version then {}
    else { changed := ["dependency " ++ package ++ " " ++ before.version ++ " -> " ++ now.version ++
      " (" ++ before.surface ++ " -> " ++ now.surface ++ ")"] }
  | _, _ => { invalid := [if (versions.error.getD "") = "" then
      package ++ " has no resolved version provenance" else versions.error.getD ""] }

/-- `dependency_changes` -/
def Evaluation.dependencyChanges (citations : List Citation) : Changes :=
  let foreign := citations.filter fun citation => (ecosystemFromPath citation.path).isNone
  let packages := (citations.filterMap fun citation => (ecosystemFromPath citation.path).map
    fun ecosystem => (packageFromPath citation.path, ecosystem)).eraseDups.mergeSort
      fun a b => decide (a.1 < b.1) || (a.1 == b.1 && decide (a.2 ≤ b.2))
  (packages.map fun p => packageChange p.1 (evaluation.versions p.1 p.2)).foldl Changes.append
    { invalid := foreign.map fun citation => citation.path ++
        " does not identify a Python or npm dependency source, so " ++
        packageFromPath citation.path ++ " has no resolved-version namespace" }

/-! ## Findings -/

/-- What is reported of a claim. -/
inductive Finding where
  | invalid (detail : String)
  | changed (details : List String)
  | surfaced (details : List String)

/-- The kinds of finding. -/
inductive FindingKind where
  | invalid | changed | surfaced
deriving DecidableEq

/-- The kind of a finding. -/
def Finding.kind : Finding → FindingKind
  | .invalid _ => .invalid
  | .changed _ => .changed
  | .surfaced _ => .surfaced

/-- An invalid claim is nothing else, a changed one is not surfaced. -/
def Changes.finding (changes : Changes) : Option Finding :=
  if changes.invalid ≠ [] then some (.invalid ("; ".intercalate changes.invalid.eraseDups))
  else if changes.changed ≠ [] then some (.changed changes.changed)
  else if changes.surfaced ≠ [] then some (.surfaced changes.surfaced)
  else none

/-- The errors of some citations; an empty one would count as none. -/
def Evaluation.errors (citations : List Citation) : List String :=
  citations.filterMap fun citation =>
    match evaluation.source citation with
    | .error e => if e = "" then none else some e
    | .ok _ => none

/-- The sources that resolve. -/
def Evaluation.sources (citations : List Citation) : List (LocalSource τ) :=
  citations.filterMap fun citation =>
    match evaluation.source citation with
    | .error _ => none
    | .ok source => source

/-- The semantic comparison of some local citations, and the dependencies beside it. -/
def Evaluation.compare (claim : Claim) (citations dependencies : List Citation) :
    Option Finding :=
  let sources := evaluation.sources citations
  let compared : Changes := if sources = [] then {} else
    evaluation.reader.localChanges claim.anchors sources (dependencies ≠ [])
  let fromDependencies : Changes := if dependencies = [] then {} else
    evaluation.dependencyChanges dependencies
  (({ invalid := evaluation.errors citations } : Changes).append compared |>.append
    fromDependencies).finding

/-- The needle is a part of the text. -/
def occursIn (needle text : String) : Bool := decide (needle.toList <:+: text.toList)

/-- `_mapping_pending_for_code_head` -/
def Evaluation.mappingPending (error : String) : Bool :=
  occursIn noAttribution error &&
    match evaluation.head, evaluation.history.mappings with
    | some head, .ok rows => occursIn head error && rows.any fun row =>
        row.codeCommit != head && evaluation.isAncestor row.codeCommit head
    | _, _ => false

/-- The route of a claim. -/
def Evaluation.route (claim : Claim) : ClaimRoute :=
  routeClaim evaluation.trees evaluation.history evaluation.codeCommit claim.citations

/-- `evaluate_claim` -/
def Evaluation.evaluateClaim (claim : Claim) : Option Finding :=
  let route := evaluation.route claim
  match route.status with
  | .error e =>
    if evaluation.mappingPending e then none
    else some (.invalid ("exact-path change routing failed: " ++ e))
  | .semanticRequired =>
    evaluation.compare claim (route.localCitations.map (·.citation)) route.dependencies
  | .provenUnchanged => evaluation.compare claim [] route.dependencies

/-- The full comparison: every citation of the claim, without a look at the router. -/
def Evaluation.compareEvery (claim : Claim) : Option Finding :=
  evaluation.compare claim claim.citations (claim.citations.filter evaluation.trees.isDependency)

end comparison

end AgentsRemember.Citations
