import AgentsRemember.Foundation.Matching
import AgentsRemember.Foundation.Ranked
import Mathlib.Data.String.Basic

/-!
# Backfill — Selection

Which trailer each memory commit must carry: the ledger rows that a trailer
could carry, a maximum matching of their code commits, the oldest row of every
memory commit the matching did not reach, and the census of what the rule
declined and lost.
-/

namespace AgentsRemember.Backfill

/-- One row of the table, both cells named in full. -/
structure LedgerRow where
  codeCommit : String
  memoryCommit : String
  deriving DecidableEq

/-- Why a row names no commit. -/
inductive SkipReason where
  | memoryCommitMissing
  | memoryCommitUnreachable
  | codeCommitNotHeld
  | memoryCommitClaimed
  | codeCommitAlreadyNamed

/-- A row and why it was skipped. -/
structure SkippedRow where
  row : LedgerRow
  reason : SkipReason

/-- A code commit no trailer names, and the claim that took its memory commit. -/
structure LostClaim where
  codeCommit : String
  memoryCommit : String
  winner : String

/-- What the two repositories answer about a name. -/
structure Reads where
  resolves : String → Bool
  isAncestor : String → String → Bool
  codeCommitIsHeld : String → Bool

/-! ## The rows a trailer could carry -/

/-- Why no trailer could carry a row. -/
def rowSkipReason (reads : Reads) (tip : String) (row : LedgerRow) : Option SkipReason :=
  if !reads.resolves row.memoryCommit then some .memoryCommitMissing
  else if !reads.isAncestor row.memoryCommit tip then some .memoryCommitUnreachable
  else if !reads.codeCommitIsHeld row.codeCommit then some .codeCommitNotHeld
  else none

/-- The rows a trailer could carry. -/
def candidatesOf (reads : Reads) (tip : String) (rows : List LedgerRow) : List LedgerRow :=
  rows.filter fun row => (rowSkipReason reads tip row).isNone

/-- The rows no trailer could carry. -/
def holesOf (reads : Reads) (tip : String) (rows : List LedgerRow) : List SkippedRow :=
  rows.filterMap fun row => (rowSkipReason reads tip row).map (SkippedRow.mk row)

/-! ## The pairings -/

/-- One row more of a code commit. -/
def enroll (d : List (String × List String)) (row : LedgerRow) : List (String × List String) :=
  let d := Keyed.setDefault d row.codeCommit []
  if row.memoryCommit ∈ (d.lookup row.codeCommit).getD [] then d
  else Keyed.attach d row.codeCommit row.memoryCommit

/-- The memory commits of each code commit, each of them once. The rows are
read from the bottom up and every list is turned at the end. -/
def byCode (candidates : List LedgerRow) : List (String × List String) :=
  (candidates.reverse.foldl enroll []).map fun e => (e.1, e.2.reverse)

/-- How deep in the table the oldest row of each code commit sits. -/
def oldestRowRank (candidates : List LedgerRow) : List (String × Nat) :=
  candidates.zipIdx.foldl (fun ranks e =>
      Keyed.set ranks e.1.codeCommit (max ((ranks.lookup e.1.codeCommit).getD 0) e.2))
    (Keyed.dict (candidates.map fun row => (row.codeCommit, 0)))

/-- Most constrained first, then the oldest claim. -/
def offerKey (edges : List (String × List String)) (oldestRow : List (String × Nat))
    (code : String) : Nat ×ₗ Int ×ₗ String :=
  toLex (((edges.lookup code).getD []).length,
    toLex (-((oldestRow.lookup code).getD 0 : Int), code))

/-- The matching of the code commits. -/
def maximumMatching (edges : List (String × List String)) (oldestRow : List (String × Nat)) :
    List (String × String) :=
  Matching.maximumMatching (fun code => (edges.lookup code).getD [])
    (Ranked.sortBy (offerKey edges oldestRow) (edges.map Prod.fst))

/-- The first row of each memory commit. -/
def byMemory (candidates : List LedgerRow) : List (String × String) :=
  candidates.foldl (fun d row => Keyed.setDefault d row.memoryCommit row.codeCommit) []

/-- The owners after the memory commits the matching did not reach are filled in. -/
def ownersOf (candidates : List LedgerRow) : List (String × String) :=
  (byMemory candidates).foldl (fun owner e => Keyed.setDefault owner e.1 e.2)
    (maximumMatching (byCode candidates) (oldestRowRank candidates))

/-- The rows whose pairing was matched. -/
def selectPairings (candidates : List LedgerRow) : List LedgerRow :=
  candidates.filter fun row =>
    decide ((ownersOf candidates).lookup row.memoryCommit = some row.codeCommit)

/-! ## The selection and its census -/

/-- Why a candidate was declined. -/
def declineReason (row : LedgerRow) (named : Finset String) : SkipReason :=
  if row.codeCommit ∈ named then .codeCommitAlreadyNamed else .memoryCommitClaimed

/-- The code commits a trailer assignment names. -/
def named (chosen : List (String × String)) : Finset String := (chosen.map Prod.snd).toFinset

/-- The code commits nothing names. -/
def lostClaims (candidates : List LedgerRow) (chosen : List (String × String)) : List LostClaim :=
  ((candidates.map LedgerRow.codeCommit).reverse.dedup.reverse.filter
      fun code => code ∉ named chosen).map fun code =>
    let contested := ((candidates.find? fun row =>
      decide (row.codeCommit = code) && decide (row.memoryCommit ∈ chosen.map Prod.fst)).map
        LedgerRow.memoryCommit).getD ""
    ⟨code, contested, (chosen.lookup contested).getD ""⟩

/-- What one selection answers: the trailer of each memory commit, the rows
without one, how many rows a trailer could carry, and the lost claims. -/
structure Selection where
  chosen : List (String × String)
  skipped : List SkippedRow
  carriable : Nat
  lost : List LostClaim

/-- `choose_trailers`: the selection and its census. -/
def chooseTrailers (reads : Reads) (tip : String) (rows : List LedgerRow) : Selection :=
  let candidates := candidatesOf reads tip rows
  let selected := selectPairings candidates
  let chosen := Keyed.dict (selected.map fun row => (row.memoryCommit, row.codeCommit))
  let declined := (candidates.filter fun row => row ∉ selected).map fun row =>
    SkippedRow.mk row (declineReason row (named chosen))
  ⟨chosen, holesOf reads tip rows ++ declined, candidates.length, lostClaims candidates chosen⟩

end AgentsRemember.Backfill
