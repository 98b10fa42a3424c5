import AgentsRemember.Backfill.Selection
import AgentsRemember.Foundation.JsonAscii
import AgentsRemember.Foundation.Lines

/-!
# Ledger — Format

The text of a memory ledger: a fenced JSON block with the header fields, and
behind it a table of two columns. The reader finds the fence, reads the
fields and takes the rows below the table's header; the writer refuses only a
ledger whose header and first row disagree.
-/

namespace AgentsRemember.Ledger

open Backfill (LedgerRow)

/-- The schema of a ledger. -/
def ledgerSchema : String := "ar-memory-ledger/v1"

/-- The schema before it. -/
def legacyLedgerSchema : String := "ar-memory-branch-ledger/v1"

/-- A ledger: its header and its rows, newest first. -/
structure MemoryLedger where
  repoName : String
  baseCodeCommit : String
  baseMemoryCommit : String
  lastVerifiedCodeCommit : String
  lastMemoryContentCommit : String
  sortOrder : String
  rows : List LedgerRow
  schema : String := ledgerSchema

/-- A reader of JSON documents. What it makes of a text outside the grammar is
left to it: the constants some readers know, the words of its errors. It reads
back what the writer wrote. -/
structure JsonReader where
  loads : List Char → Except String Json
  reads_back : ∀ members : List (String × String), (members.map Prod.fst).Nodup →
    loads (Json.renderIndented members) = .ok (.obj (members.map Json.stringMember))

/-- The reader of the grammar alone. -/
def JsonReader.strict : JsonReader where
  loads text :=
    match Json.parse text with
    | some value => .ok value
    | none => .error "Expecting value"
  reads_back members h := by rw [Json.parse_renderIndented h]

/-! ## The fence -/

/-- The fence. -/
def fence : List Char := ['\x60', '\x60', '\x60']

/-- The shortest text up to a line feed and a closing fence, and what is
behind the fence. -/
def closeFence : List Char → Option (List Char × List Char)
  | [] => none
  | c :: rest =>
    if c = '\n' ∧ fence.isPrefixOf rest then some ([], rest.drop fence.length)
    else (closeFence rest).map fun (body, rest) => (c :: body, rest)

/-- White space, a line feed and a block. As much white space as leaves a line
feed and a closing fence to be found is taken. -/
def openBody : List Char → Option (List Char × List Char)
  | [] => none
  | c :: rest =>
    if Lines.isSpace c then
      match openBody rest with
      | some found => some found
      | none => if c = '\n' then closeFence rest else none
    else none

/-- The opening line of the block, up to its mark. -/
def openingMark : List Char := fence ++ ['j', 's', 'o', 'n']

/-- The mark of the block. -/
def ledgerMark : List Char :=
  ['a', 'r', '-', 'm', 'e', 'm', 'o', 'r', 'y', '-', 'l', 'e', 'd', 'g', 'e', 'r']

/-- A fenced block at the head of a text: its body and what is behind it. -/
def fenceAt (text : List Char) : Option (List Char × List Char) :=
  let named := (text.drop openingMark.length).dropWhile Lines.isSpace
  if openingMark.isPrefixOf text ∧ named ≠ text.drop openingMark.length ∧
      ledgerMark.isPrefixOf named then
    openBody (named.drop ledgerMark.length)
  else none

/-- The first fenced block of a text. -/
def findFence : List Char → Option (List Char × List Char)
  | [] => none
  | c :: rest =>
    match fenceAt (c :: rest) with
    | some found => some found
    | none => findFence rest

/-! ## The metadata -/

/-- `str.strip`. -/
def stripped (s : String) : String := String.ofList (Lines.strip s.toList)

/-- The first of several names with a text that is not blank. -/
def metadataGet (metadata : List (String × Json)) : List String → String
  | [] => ""
  | name :: names =>
    match metadata.lookup name with
    | some (.str value) =>
      if stripped value ≠ "" then stripped value else metadataGet metadata names
    | _ => metadataGet metadata names

/-- The header fields as JSON. -/
def readMetadata (reader : JsonReader) (body : List Char) :
    Except String (List (String × Json)) :=
  match reader.loads body with
  | .error e => .error ("memory.md ledger metadata is invalid JSON: " ++ e)
  | .ok (.obj metadata) => .ok metadata
  | .ok _ => .error "memory.md ledger metadata must be a JSON object"

/-- The fields of the block, over no rows yet. -/
def headerOf (metadata : List (String × Json)) : MemoryLedger where
  repoName := metadataGet metadata ["repoName", "repo_name"]
  baseCodeCommit := metadataGet metadata ["baseCodeCommit", "base_code_commit"]
  baseMemoryCommit := metadataGet metadata ["baseMemoryCommit", "base_memory_commit"]
  lastVerifiedCodeCommit :=
    metadataGet metadata ["lastVerifiedCodeCommit", "last_verified_code_commit"]
  lastMemoryContentCommit :=
    metadataGet metadata ["lastMemoryContentCommit", "last_memory_content_commit"]
  sortOrder := metadataGet metadata ["sortOrder", "sort_order"]
  rows := []
  schema := metadataGet metadata ["schema"]

/-- The required fields that are empty. -/
def missingFields (header : MemoryLedger) : List String :=
  ([("schema", header.schema), ("repoName", header.repoName),
    ("sortOrder", header.sortOrder)].filter fun e => e.2 = "").map Prod.fst

/-- What is asked of the header. -/
def requireFields (header : MemoryLedger) : Except String Unit :=
  if missingFields header ≠ [] then
    .error ("memory.md ledger metadata is missing required fields: " ++
      ", ".intercalate (missingFields header))
  else if header.schema ∉ [ledgerSchema, legacyLedgerSchema] then
    .error ("unsupported memory ledger schema: " ++ header.schema)
  else .ok ()

/-! ## The table -/

/-- The cells of a line of a table, and none for any other line. -/
def tableCells (line : List Char) : List (List Char) :=
  let text := Lines.strip line
  if text.head? ≠ some '|' ∨ text.getLast? ≠ some '|' then []
  else ((Lines.stripBy (· == '|') text).splitOn '|').map Lines.strip

/-- Whether a line names the two columns. No letter outside ASCII has one of
the letters of these names for its lower case. -/
def isHeader (line : List Char) : Bool :=
  (tableCells line).map (fun cell => String.ofList (cell.map Char.toLower)) ==
    ["code commit", "memory commit"]

/-- At least three dashes, with or without a colon at either end. -/
def isRule (cell : List Char) : Bool :=
  let dashes := match cell with
    | ':' :: rest => rest
    | cell => cell
  decide (3 ≤ (dashes.takeWhile (· == '-')).length) &&
    [[], [':']].contains (dashes.dropWhile (· == '-'))

/-- The row under the table's header. -/
def isSeparatorRow (line : List Char) : Bool :=
  !(tableCells line).isEmpty && (tableCells line).all isRule

/-- The rows from the first line of a table to the first line outside it. -/
def ledgerRowsFrom (rows : List LedgerRow) : List (List Char) → Except String (List LedgerRow)
  | [] => .ok rows
  | line :: lines =>
    match tableCells line with
    | [] => if rows ≠ [] then .ok rows else ledgerRowsFrom rows lines
    | [code, memory] =>
      ledgerRowsFrom (rows ++ [⟨String.ofList code, String.ofList memory⟩]) lines
    | _ => .error "memory.md ledger table rows must have exactly two columns"

/-- The rows below the first line that names the columns. -/
def rowsBelow : List (List Char) → Except String (List LedgerRow)
  | [] => .error "memory.md is missing the `Code commit | Memory commit` table"
  | line :: lines =>
    if isHeader line then
      match lines with
      | [] => .error "memory.md ledger table header is not followed by a separator row"
      | rule :: lines =>
        if isSeparatorRow rule then ledgerRowsFrom [] lines
        else .error "memory.md ledger table header is not followed by a separator row"
    else rowsBelow lines

/-- The rows of the table. -/
def parseLedgerRows (text : List Char) : Except String (List LedgerRow) :=
  rowsBelow (Lines.splitlines text)

/-! ## Reading -/

/-- The commits of the header. -/
def commitFields (header : MemoryLedger) : List String :=
  [header.baseCodeCommit, header.baseMemoryCommit, header.lastVerifiedCodeCommit,
    header.lastMemoryContentCommit]

/-- A ledger with rows has its commits. -/
def requireCommits (header : MemoryLedger) (rows : List LedgerRow) : Except String Unit :=
  if rows ≠ [] ∧ "" ∈ commitFields header then
    .error "a nonempty memory ledger requires its commit metadata"
  else .ok ()

/-- The text of a ledger, its order not checked yet. -/
def parseLedgerTextUnvalidated (reader : JsonReader) (text : List Char) :
    Except String MemoryLedger :=
  match findFence text with
  | none => .error "memory.md is missing a fenced `json ar-memory-ledger` metadata block"
  | some (body, rest) => do
    let metadata ← readMetadata reader body
    requireFields (headerOf metadata)
    let rows ← parseLedgerRows rest
    requireCommits (headerOf metadata) rows
    return { headerOf metadata with rows := rows }

/-- The header agrees with the newest row. -/
def validateLedger (ledger : MemoryLedger) : Except String Unit :=
  if ledger.sortOrder ≠ "newest-first" then
    .error "memory.md ledger sortOrder must be `newest-first`"
  else match ledger.rows with
  | [] =>
    if ledger.lastVerifiedCodeCommit ≠ "" ∨ ledger.lastMemoryContentCommit ≠ "" then
      .error "an empty memory ledger cannot claim a current mapping"
    else .ok ()
  | first :: _ =>
    if first.codeCommit ≠ ledger.lastVerifiedCodeCommit then
      .error "memory.md first Code commit row must match lastVerifiedCodeCommit"
    else if first.memoryCommit ≠ ledger.lastMemoryContentCommit then
      .error "memory.md first Memory commit row must match lastMemoryContentCommit"
    else .ok ()

/-- `parse_ledger_text`. -/
def parseLedgerText (reader : JsonReader) (text : List Char) : Except String MemoryLedger := do
  let ledger ← parseLedgerTextUnvalidated reader text
  validateLedger ledger
  return ledger

/-! ## Writing -/

/-- The header fields in their order. -/
def metadataOf (ledger : MemoryLedger) : List (String × String) :=
  [("schema", ledgerSchema),
    ("repoName", ledger.repoName),
    ("baseCodeCommit", ledger.baseCodeCommit),
    ("baseMemoryCommit", ledger.baseMemoryCommit),
    ("lastVerifiedCodeCommit", ledger.lastVerifiedCodeCommit),
    ("lastMemoryContentCommit", ledger.lastMemoryContentCommit),
    ("sortOrder", ledger.sortOrder)]

/-- The title. -/
def titleLines : List (List Char) :=
  ["# Memory Ledger".toList, []]

/-- The head of the table. -/
def tableLines : List (List Char) :=
  [[],
    "Newest entries are always inserted at the top.".toList,
    [],
    "| Code commit | Memory commit |".toList,
    "| ----------- | ------------- |".toList]

/-- A row as it is written. -/
def rowLine (row : LedgerRow) : List Char :=
  ['|', ' '] ++ row.codeCommit.toList ++ [' ', '|', ' '] ++ row.memoryCommit.toList ++ [' ', '|']

/-- The lines of a ledger. -/
def ledgerLines (ledger : MemoryLedger) : List (List Char) :=
  titleLines ++ [openingMark ++ ' ' :: ledgerMark, Json.renderIndented (metadataOf ledger), fence] ++
    tableLines ++ ledger.rows.map rowLine ++ [[]]

/-- `ledger_to_text`: an invalid ledger is not written. -/
def ledgerToText (ledger : MemoryLedger) : Except String (List Char) := do
  validateLedger ledger
  return ['\n'].intercalate (ledgerLines ledger)

/-! ## New ledgers -/

/-- A ledger with its first row. -/
def createInitialLedger (repoName codeCommit memoryCommit : String) : MemoryLedger where
  repoName := repoName
  baseCodeCommit := codeCommit
  baseMemoryCommit := memoryCommit
  lastVerifiedCodeCommit := codeCommit
  lastMemoryContentCommit := memoryCommit
  sortOrder := "newest-first"
  rows := [⟨codeCommit, memoryCommit⟩]

/-- A row in front of the others. -/
def prependMapping (ledger : MemoryLedger) (codeCommit memoryCommit : String) :
    Except String MemoryLedger :=
  if stripped codeCommit = "" ∨ stripped memoryCommit = "" then
    .error "code_commit and memory_commit are required"
  else .ok
    { ledger with
      lastVerifiedCodeCommit := stripped codeCommit
      lastMemoryContentCommit := stripped memoryCommit
      rows := ⟨stripped codeCommit, stripped memoryCommit⟩ :: ledger.rows }

end AgentsRemember.Ledger
