import AgentsRemember.Citations.Sightings
import AgentsRemember.Citations.SourceCells
import AgentsRemember.Foundation.Attempts
import AgentsRemember.Foundation.Spans

/-!
# Citations — Repair

How the fixer plans the source list of one claim. Every anchor is looked for in
the files that are cited, and in the code tree only when none of them exists any
more; then what the anchor was where the claim was verified has to agree with
what is found. The first refusal is the answer. Otherwise the ranges found are
fused file by file, and some sources are carried over.
-/

namespace AgentsRemember.Citations

/-! ## Refusals -/

/-- Why a repair is declined. -/
inductive DeclineCode where
  | anchorAbsent | anchorAmbiguous | anchorLeftLiveFile | anchorContinuityUnproven
  | anchorKindChanged

/-- The code as a report has it. -/
def DeclineCode.text : DeclineCode → String
  | .anchorAbsent => "anchor_absent"
  | .anchorAmbiguous => "anchor_ambiguous"
  | .anchorLeftLiveFile => "anchor_left_live_file"
  | .anchorContinuityUnproven => "anchor_continuity_unproven"
  | .anchorKindChanged => "anchor_kind_changed"

/-- `DECLINE_REMEDIATION` -/
def DeclineCode.remediation : DeclineCode → String
  | .anchorAbsent =>
    "--fix repairs pure moves only, and this is not one: the anchor keeps its name " ++
    "nowhere in the tree. Read the CLAIM rather than the pointer -- a symbol that " ++
    "exists nowhere usually means the behaviour changed, not that a number went stale."
  | .anchorAmbiguous =>
    "--fix rewrites a path only when the anchor resolves UNIQUELY, and it never picks " ++
    "between candidates by similarity: an agent that READS two functions can tell a " ++
    "mapper from a validator, a string distance cannot. Read the candidates and cite " ++
    "the one the claim is about."
  | .anchorLeftLiveFile =>
    "--fix retargets across the tree only when every cited file is GONE, because a cited " ++
    "file that survives is still the claim's own evidence. Here the anchor left a file " ++
    "that is still there, so the pointer is stale: read the CLAIM and cite where its fact " ++
    "now lives. Every candidate the tree holds is named in the message above."
  | .anchorContinuityUnproven =>
    "--fix retargets across the tree only when CONTINUITY IS PROVED: the anchor has to " ++
    "have existed in a cited file at the document's lastVerifiedCommitHash and to have " ++
    "carried the same extent kind there. Nothing here guesses from a name. Establish the " ++
    "claim's original evidence first -- stamp the card at the commit it was verified " ++
    "against -- and then re-cite where its fact now lives: a declaration elsewhere does " ++
    "not evidence a claim about a mention here."
  | .anchorKindChanged =>
    "--fix will not follow a name into its DECLARATION. The anchor was a mention where " ++
    "the claim was verified and the only tree-wide match is the construct that declares " ++
    "the same name -- a different fact, and one that does not evidence a claim about a " ++
    "mention here. Read the CLAIM and cite where its fact now lives; if the claim really " ++
    "is about the declaration, re-word it and cite the declaration deliberately."

/-- A declined repair. -/
structure Decline where
  code : DeclineCode
  anchor : Anchor
  detail : String

/-- The message, with what to do about it. -/
def Decline.message (decline : Decline) : String :=
  decline.detail ++ " " ++ decline.code.remediation

/-! ## One extent -/

/-- `Extent.holds`: whether the extent overlaps a range at all. -/
def Extent.overlaps (extent : Extent) (start stop : Nat) : Bool :=
  extent.start ≤ stop && start ≤ extent.stop

/-- The one extent that a citation means, if the file offers no choice. -/
def chosen (found : List Extent) (citation : Citation) : Option Extent :=
  match found with
  | [one] => some one
  | _ =>
    match found.filter fun one => one.overlaps citation.start citation.stop with
    | [one] => some one
    | _ => none

/-! ## What the claim was verified against -/

/-- What an anchor was at the verification stamp, or why that is not known. -/
structure Origin where
  kind : Option ExtentKind
  detail : String
  commit : String := ""
  source : String := ""

/-- The provenance that a document declares. -/
structure Continuity where
  trees : Trees
  history : MemoryHistory
  /-- The commit of the code history that a stamp names, or why it names none. -/
  codeCommit : String → Except String String
  decode : Bytes → List Char
  grammar : Grammar
  stamp : String

namespace Continuity
variable (continuity : Continuity)

/-- The commit the claim was verified at. -/
def commit : Except String String :=
  if continuity.stamp = "" then
    .error ("the document carries no lastVerifiedCommitHash, so the extent this claim was " ++
      "verified against cannot be established")
  else continuity.codeCommit continuity.stamp

/-- `_file` -/
def file (source : LocalCitation) (commit : String) : Read :=
  match source.repository with
  | .code => continuity.trees.code.file commit source.citation.path
  | .memory => do
    let mapped ← continuity.history.memoryCommit commit
    continuity.trees.memory.file mapped source.citation.path

/-- The extents of an anchor in one cited file at the stamp, or why there are none. -/
def holds (citation : Citation) (anchor : Anchor) (commit : String) :
    Except String (List Extent) :=
  match continuity.trees.classify citation with
  | .error error => .error error
  | .ok none => .error (citation.path ++ " names no local source to read at " ++ commit)
  | .ok (some source) =>
    match continuity.file source commit with
    | .error error =>
      .error (if error = "" then citation.path ++ " could not be read at " ++ commit else error)
    | .ok bytes =>
      let view : FileView :=
        { path := citation.path, lines := Lines.splitlines (continuity.decode bytes) }
      match ((view.extents continuity.grammar anchor).1).getD [] with
      | [] => .error (citation.path ++ " at " ++ commit ++ " holds no " ++ anchor.written)
      | found => .ok found

/-- What one citation tells of the origin. -/
def choice (anchor : Anchor) (commit : String) (citation : Citation) :
    Except String (Citation × Extent) :=
  match continuity.holds citation anchor commit with
  | .error failure => .error failure
  | .ok found =>
    match chosen found citation with
    | some one => .ok (citation, one)
    | none =>
      .error (anchor.written ++ " occurs " ++ toString found.length ++ " times in " ++
        citation.path ++ " at " ++ commit ++ " and the cited range " ++ citation.text ++
        " picks out none of them")

/-- The one extent that the claim was verified against, or why there is not one. -/
def origin (citations : List Citation) (anchor : Anchor) : Origin :=
  match continuity.commit with
  | .error error => ⟨none, if error = "" then "the verification stamp names no commit" else error, "", ""⟩
  | .ok commit =>
    let tried := citations.map (continuity.choice anchor commit)
    match tried.filterMap Except.toOption with
    | [(citation, one)] => ⟨some one.kind, "", commit, citation.path⟩
    | [] =>
      let failures := tried.filterMap fun one =>
        match one with
        | .error failure => some failure
        | .ok _ => none
      ⟨none, if failures = [] then "no cited source could be read at " ++ commit
        else "; ".intercalate failures, "", ""⟩
    | choices =>
      ⟨none, anchor.written ++ " was in " ++ toString choices.length ++ " of the cited files at " ++
        commit ++ " (" ++ ", ".intercalate (choices.map fun one => one.1.path) ++
        "), so the extent this claim was verified against is not unique", "", ""⟩

end Continuity

/-! ## Placing one anchor -/

/-- Where an anchor is now. -/
structure ResolvedLocation where
  anchor : Anchor
  path : String
  extent : Extent

/-- A location as a source. -/
def Location.written (one : Location) : String :=
  sourceText one.path one.extent.start one.extent.stop

/-- `described`: every location in the tree, or that there is none. -/
def described (anchor : Anchor) (seen : Sightings) : String :=
  if seen.files = 0 then
    anchor.written ++ " exists NOWHERE in the code tree, so this is a rename or a deletion " ++
      "rather than a move -- the claim itself is what needs re-reading, not the pointer"
  else
    let shown := ", ".intercalate (seen.locations.map Location.written)
    let scope := toString seen.files ++ " file(s) hold it"
    if seen.truncated then
      scope ++ "; every definition and the first " ++ toString locationFileLimit ++
        " mentions are " ++ shown
    else scope ++ ", at " ++ shown

/-- Paths in the order of their characters, each once. -/
def sortedPaths (paths : List String) : List String := paths.eraseDups.insertionSort (· ≤ ·)

/-- The kind in a sentence. -/
def namedKind : Option ExtentKind → String
  | none => "an extent whose kind could not be established"
  | some kind =>
    (if kind.name.toList.head?.any fun c => ['a', 'e', 'i', 'o', 'u'].contains c.toLower then "an"
      else "a") ++ " " ++ kind.name

/-- The anchor is more than once in a cited file. -/
def ambiguousInFile (anchor : Anchor) (citation : Citation) (found : List Extent) : Decline where
  code := .anchorAmbiguous
  anchor := anchor
  detail := anchor.written ++ " occurs " ++ toString found.length ++ " times in " ++
    citation.path ++ " and the cited range " ++ citation.text ++ " picks out none of them: " ++
    ", ".intercalate (found.map fun e => sourceText citation.path e.start e.stop) ++ "."

/-- The anchor is elsewhere, its cited file still there. -/
def leftALiveFile (anchor : Anchor) (live : List String) (seen : Sightings) : Decline where
  code := .anchorLeftLiveFile
  anchor := anchor
  detail := anchor.written ++ " is in none of the cited files, and " ++ ", ".intercalate live ++
    " still exists in the tree, so a tree-wide exact-name match is a different fact rather " ++
    "than this claim's location: " ++ described anchor seen ++ "."

/-- The anchor is nowhere, or in more than one place. -/
def noSingleSighting (anchor : Anchor) (seen : Sightings) : Decline where
  code := if seen.files = 0 then .anchorAbsent else .anchorAmbiguous
  anchor := anchor
  detail := anchor.written ++ " is in none of the cited files and " ++ described anchor seen ++ "."

/-- What the anchor was cannot be told. -/
def continuityUnproven (anchor : Anchor) (seen : Sightings) (origin : Origin) : Decline where
  code := .anchorContinuityUnproven
  anchor := anchor
  detail := anchor.written ++ " is in none of the cited files, the extent it was verified " ++
    "against cannot be established -- " ++ origin.detail ++ " -- so the tree-wide exact-name " ++
    "match " ++ described anchor seen ++ " is not this claim's evidence moved."

/-- The anchor is of another kind now. -/
def kindChanged (anchor : Anchor) (unique : Location) (origin : Origin) : Decline where
  code := .anchorKindChanged
  anchor := anchor
  detail := anchor.written ++ " was " ++ namedKind origin.kind ++ " in " ++ origin.source ++
    " at " ++ origin.commit ++ ", and the only tree-wide exact-name match is " ++
    namedKind (some unique.extent.kind) ++ " at " ++ unique.written ++
    ": a different fact rather than this claim's evidence moved."

section placing
variable (walk : Walk) (sightings : Anchor → Sightings) (continuity : Option Continuity)
  (citations : List Citation)

/-- The anchor in the cited files. A file that offers a choice ends the search. -/
def placeCited (anchor : Anchor) : List Citation → Except Decline (List ResolvedLocation)
  | [] => .ok []
  | citation :: rest =>
    if walk.extents citation.path anchor = [] then placeCited anchor rest
    else
      match chosen (walk.extents citation.path anchor) citation with
      | none => .error (ambiguousInFile anchor citation (walk.extents citation.path anchor))
      | some extent => do
        let later ← placeCited anchor rest
        .ok (⟨anchor, citation.path, extent⟩ :: later)

/-- The wider tree: only when no cited file is left, and only with a proved origin of the
same kind. -/
def retarget (anchor : Anchor) : Except Decline ResolvedLocation :=
  let seen := sightings anchor
  let live := sortedPaths ((citations.filter fun one => (walk.lines one.path).isSome).map
    Citation.path)
  if live ≠ [] then .error (leftALiveFile anchor live seen)
  else
    match seen.unique walk.parsed with
    | none => .error (noSingleSighting anchor seen)
    | some unique =>
      let origin :=
        match continuity with
        | some continuity => continuity.origin citations anchor
        | none => ⟨none, "this pass carries no verification provenance for the claim", "", ""⟩
      match origin.kind with
      | none => .error (continuityUnproven anchor seen origin)
      | some kind =>
        if kind ≠ unique.extent.kind then .error (kindChanged anchor unique origin)
        else .ok ⟨anchor, unique.path, unique.extent⟩

/-- Where the ranges of an anchor come from, and whether it was relocated. -/
def place (anchor : Anchor) : Except Decline (List ResolvedLocation × Bool) := do
  let placed ← placeCited walk anchor citations
  if placed ≠ [] then .ok (placed, false)
  else do
    let location ← retarget walk sightings continuity citations anchor
    .ok ([location], true)

/-! ## The source list -/

/-- `_Plan`; the spans and the paths reached are those of the locations. -/
structure Plan where
  locations : List ResolvedLocation
  relocated : Bool

/-- The files a plan reaches. -/
def Plan.reached (found : Plan) : List String := found.locations.map ResolvedLocation.path

/-- The ranges a plan reaches in a file. -/
def Plan.spans (found : Plan) (path : String) : List Spans.Span :=
  (found.locations.filter fun one => one.path = path).map fun one =>
    (one.extent.start, one.extent.stop)

/-- What survives unchanged: a source of somebody else's tree, and, while nothing moved, a
file that holds none of the anchors. -/
def carried (found : Plan) : List Citation :=
  citations.filter fun one => !found.reached.contains one.path &&
    ((walk.lines one.path).isNone && !walk.trees.ours one.path ||
      (walk.lines one.path).isSome && !found.relocated)

/-- The sources of a plan: its ranges, fused file by file. -/
def generated (found : Plan) : List Citation :=
  (sortedPaths found.reached).flatMap fun path => (Spans.merged (found.spans path)).map fun range =>
    ⟨sourceText path range.1 range.2, path, range.1, range.2⟩

/-- `_written`, as the citations that it spells. -/
def written (found : Plan) : List Citation := generated found ++ carried walk citations found

end placing

/-- What a repair writes. -/
structure Repair where
  sources : List String
  locations : List ResolvedLocation

/-- Anchors behind one that is refused are not looked at: the first refusal stands. -/
def plan (walk : Walk) (sightings : Anchor → Sightings) (continuity : Option Continuity)
    (claim : Claim) : Except Decline Repair := do
  let placed ← claim.anchors.mapM (place walk sightings continuity claim.citations)
  let found : Plan := ⟨placed.flatMap Prod.fst, placed.any Prod.snd⟩
  .ok ⟨(written walk claim.citations found).map Citation.text, found.locations⟩

/-! ## The tests that select a claim -/

section failing
variable (walk : Walk) (claim : Claim)

/-- A range that runs past the end of its own file. -/
def outOfBounds (citation : Citation) : Bool :=
  (walk.lines citation.path).any fun lines => decide (lines.length < citation.stop)

/-- A path into one of the two trees that does not exist. -/
def vanished (citation : Citation) : Bool :=
  (walk.lines citation.path).isNone && walk.trees.ours citation.path

/-- A source into neither of the two trees. -/
def thirdParty (citation : Citation) : Bool :=
  (walk.lines citation.path).isNone && !walk.trees.ours citation.path

/-- Whether the cited range of a file holds an anchor. -/
def cites (anchor : Anchor) (citation : Citation) : Bool :=
  (walk.lines citation.path).any fun lines =>
    anchor.occursIn (bodyOf lines citation.start citation.stop)

/-- The anchors that no resolved range holds; with nothing resolved, none is known to be
unheld. -/
def unsatisfied : List Anchor :=
  if claim.citations.all fun one => (walk.lines one.path).isNone then []
  else claim.anchors.filter fun anchor => !claim.citations.any (cites walk anchor)

/-- The claim as it stands does not pass. -/
def failing : Bool :=
  claim.citations.any (outOfBounds walk) || unsatisfied walk claim ≠ [] ||
    claim.citations.any (vanished walk)

end failing

/-! ## Writing -/

/-- The list that is written: every source once. -/
def Repair.list (repair : Repair) : List String := repair.sources.eraseDups

/-- The claim as it is read when the list stands in the place of the old one, with what is
no source in it. -/
def rewritten (claim : Claim) (repair : Repair) : Claim × List (List Char) :=
  ({ claim with citations := (citationsIn (joined repair.list)).1 },
    (citationsIn (joined repair.list)).2)

/-- One claim left for the curator. -/
structure Refused where
  path : String
  line : Nat
  code : String
  anchor : Option String
  message : String

/-- What becomes of a claim that is repaired. -/
inductive Outcome where
  | refused (refusal : Refused)
  | unchanged
  | edit (was now : List Char)

/-- `_decide` of a claim that is repaired. The projection of an edit may be declined. -/
def decideRepair (relative : String) (line : Nat) (was : List Char)
    (projection : Repair → Option Refused) (outcome : Except Decline Repair) : Outcome :=
  match outcome with
  | .error decline =>
    .refused ⟨relative, line, decline.code.text, some decline.anchor.written, decline.message⟩
  | .ok repair =>
    if joined repair.list = was then .unchanged
    else
      match projection repair with
      | some refusal => .refused refusal
      | none => .edit was (joined repair.list)

end AgentsRemember.Citations
