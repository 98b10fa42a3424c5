import Mathlib.Data.List.Infix

/-!
# Citations — Sources

What a claim cites and where its paths are found: the code repository and the
memory repository, each with a working tree, a HEAD and older commits. Files are
regular, and a working file is compared with an object by its bytes. A Git
command may fail, and then the reason is all that it leaves.
-/

namespace AgentsRemember.Citations

/-! ## Claims -/

/-- The kinds of anchor. -/
inductive AnchorKind where
  | symbol | heading | quote
deriving DecidableEq

/-- What a claim holds on to. -/
structure Anchor where
  kind : AnchorKind
  text : String

/-- The anchor as a document writes it: a quote is escaped, anything else is code. -/
def Anchor.written (anchor : Anchor) : String :=
  match anchor.kind with
  | .quote => "\"" ++ String.ofList (anchor.text.toList.flatMap fun c =>
      if c = '\\' then ['\\', '\\'] else if c = '"' then ['\\', '"'] else [c]) ++ "\""
  | _ => String.ofList ['\x60'] ++ anchor.text ++ String.ofList ['\x60']

/-- `path:start-end` -/
structure Citation where
  text : String
  path : String
  start : Nat
  stop : Nat
deriving DecidableEq

/-- A claim: its anchors and what it cites. -/
structure Claim where
  line : Nat
  anchors : List Anchor
  citations : List Citation

/-! ## Repositories -/

/-- The bytes of a file. -/
abbrev Bytes := List UInt8

/-- The files of a revision. -/
abbrev Tree := String → Option Bytes

/-- A repository and what Git says of it. -/
structure Repository where
  working : Tree
  head : Tree
  commits : String → Tree
  /-- Why a census of the working tree fails, where it does. -/
  statusFailure : Option String := none
  headFailure : Option String := none
  deltaFailure : String → Option String := fun _ => none
  /-- What Git says first of a path that a commit does not have. -/
  absence : String → String → String := fun _ _ => ""
  /-- The top-level entries of the working tree. -/
  entries : String → Bool

/-- `text` or `error` -/
abbrev Read := Except String Bytes

/-- The first line of an error, or what stands for it. -/
def gitError (first fallback : String) : String := if first = "" then fallback else first

/-- `GitHistory.file` -/
def Repository.file (repository : Repository) (commit path : String) : Read :=
  match repository.commits commit path with
  | some bytes => .ok bytes
  | none => .error (gitError (repository.absence commit path)
      (path ++ " did not exist at " ++ commit))

/-- The two repositories. -/
inductive RepositoryKind where
  | code | memory

/-- The two roots that a source may name. -/
structure Trees where
  code : Repository
  memory : Repository
  /-- The memory root lies below the code root. -/
  memoryUnderCode : Bool := false

/-- `Trees.resolve`, with the kind that a target has by its place: the code root comes first. -/
def Trees.resolve (trees : Trees) (path : String) : Option (RepositoryKind × Bytes) :=
  match trees.code.working path with
  | some bytes => some (.code, bytes)
  | none => (trees.memory.working path).map fun bytes =>
      (if trees.memoryUnderCode then .code else .memory, bytes)

/-- A citation found in a repository. -/
structure LocalCitation where
  citation : Citation
  repository : RepositoryKind
  target : Option Bytes

/-- `path.split("/", maxsplit=1)[0]` -/
def firstSegment (path : String) : String :=
  String.ofList (path.toList.takeWhile (· ≠ '/'))

/-- `classify_citation`: a source of one of the two repositories, or of neither. A path
that is absent belongs to the repository that has its top-level entry. -/
def Trees.classify (trees : Trees) (citation : Citation) : Except String (Option LocalCitation) :=
  match trees.resolve citation.path with
  | some (kind, bytes) => .ok (some ⟨citation, kind, some bytes⟩)
  | none =>
    let first := firstSegment citation.path
    let codeOwned := trees.code.entries first
    let memoryOwned := trees.memory.entries first
    if codeOwned && !memoryOwned then .ok (some ⟨citation, .code, none⟩)
    else if memoryOwned && !codeOwned then .ok (some ⟨citation, .memory, none⟩)
    else if codeOwned && memoryOwned then
      .error (citation.path ++ " is absent now and its top-level path exists in both code and " ++
        "memory, so its provenance kind is ambiguous")
    else .ok none

/-! ## The memory of a code commit -/

/-- A row of the memory ledger. -/
structure LedgerRow where
  codeCommit : String
  memoryCommit : String

/-- What the memory history tells of its commits. -/
structure MemoryHistory where
  /-- The attributed commits, or why attribution is unavailable. -/
  mappings : Except String (List LedgerRow)
  /-- The commit that a stamp names, or what Git says first where it names none. -/
  revParse : String → Except String String
  reachable : String → Bool

/-- `GitHistory.commit` of the memory repository. -/
def MemoryHistory.commit (history : MemoryHistory) (stamp : String) : Except String String :=
  match history.revParse stamp with
  | .error first =>
    .error (gitError first ("memory history stamp " ++ stamp ++ " does not name a commit"))
  | .ok commit =>
    if history.reachable commit then .ok commit
    else .error ("memory history stamp " ++ stamp ++ " resolves to " ++ commit ++
      ", but that commit is not reachable from the current memory history or a retained " ++
      "verified history anchor")

/-- The reason where no row names the commit. -/
def noAttribution : String := "no attribution for code commit"

/-- `Histories.memory_commit` -/
def MemoryHistory.memoryCommit (history : MemoryHistory) (codeCommit : String) :
    Except String String :=
  match history.mappings with
  | .error e => .error ("memory Git attribution is unavailable: " ++ e)
  | .ok rows =>
    match rows.find? fun row => row.codeCommit = codeCommit with
    | none => .error ("memory history has " ++ noAttribution ++ " " ++ codeCommit)
    | some row => history.commit row.memoryCommit

/-! ## Errors say something -/

theorem append_ne_empty {a : String} (h : a ≠ "") (b : String) : a ++ b ≠ "" := by
  intro hempty
  apply h
  rw [← String.toList_inj] at hempty ⊢
  rw [String.toList_append, String.toList_empty, List.append_eq_nil_iff] at hempty
  rw [hempty.1, String.toList_empty]

theorem gitError_ne_empty {first fallback : String} (h : fallback ≠ "") :
    gitError first fallback ≠ "" := by
  unfold gitError
  split
  · exact h
  next hfirst => exact hfirst

theorem classify_error {trees : Trees} {citation : Citation} {e : String}
    (h : trees.classify citation = .error e) : e ≠ "" := by
  unfold Trees.classify at h
  split at h
  · cases h
  · dsimp only at h
    split at h
    · cases h
    split at h
    · cases h
    split at h
    · cases h
      rw [String.append_assoc]
      intro hempty
      rw [← String.toList_inj, String.toList_append, String.toList_empty,
        List.append_eq_nil_iff] at hempty
      exact absurd hempty.2 (by decide)
    · cases h

theorem memoryCommit_error {history : MemoryHistory} {codeCommit e : String}
    (h : history.memoryCommit codeCommit = .error e) : e ≠ "" := by
  unfold MemoryHistory.memoryCommit at h
  split at h
  · cases h
    exact append_ne_empty (by decide) _
  split at h
  · cases h
    exact append_ne_empty (append_ne_empty (append_ne_empty (by decide) _) _) _
  · unfold MemoryHistory.commit at h
    split at h
    · cases h
      exact gitError_ne_empty (append_ne_empty (append_ne_empty (by decide) _) _)
    split at h
    · cases h
    · cases h
      exact append_ne_empty (append_ne_empty (append_ne_empty (append_ne_empty
        (append_ne_empty (by decide) _) _) _) _) _

end AgentsRemember.Citations
