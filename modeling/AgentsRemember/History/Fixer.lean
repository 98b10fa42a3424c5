import AgentsRemember.Foundation.Descending
import AgentsRemember.History.Order

/-!
# History — Fixer

The fixer of Update History sections: the blocks of a section, a bullet with all
that follows it, are put newest first and spliced back into the document, which
is written again when something moved. A section with a bullet that has no valid
timestamp, or with two frames, is skipped.
-/

namespace AgentsRemember.History

/-! ## Blocks -/

/-- The line opens a block. -/
def isBullet (line : Line) : Bool := (bulletPattern line).isSome

/-- The lines in front of the first bullet, the blocks that are done, and the one at work. -/
structure BlockScan where
  front : List Line := []
  blocks : List (List Line) := []
  current : Option (List Line) := none

/-- One line of the scan. -/
def scanLine (scan : BlockScan) (line : Line) : BlockScan :=
  if isBullet line then
    { scan with blocks := scan.blocks ++ scan.current.toList, current := some [line] }
  else
    match scan.current with
    | none => { scan with front := scan.front ++ [line] }
    | some current => { scan with current := some (current ++ [line]) }

/-- The lines in front, and the blocks. -/
def parseBulletBlocks (lines : List Line) : List Line × List (List Line) :=
  let scan := lines.foldl scanLine {}
  (scan.front, scan.blocks ++ scan.current.toList)

/-- The timestamp of a block. -/
def blockTimestampText : List Line → Option (List Char)
  | [] => none
  | first :: _ => (bulletPattern first).bind parseTimestamp

/-- None of a block without a timestamp, or with one that is no date. -/
def blockTimestamp (block : List Line) : Except TimeError (Option Int) :=
  match blockTimestampText block with
  | none => .ok none
  | some timestamp =>
    match datetimeValue timestamp with
    | .ok value => .ok (some value)
    | .error .value => .ok none
    | .error .overflow => .error .overflow

/-- Whether some bullets of a section state an offset and some do not. -/
def mixesTimestampFrames (blocks : List (List Line)) : Bool :=
  let frames := (blocks.filterMap blockTimestampText).map hasOffset
  frames.contains true && frames.contains false

/-- The first block without a timestamp answers; the ones behind it are not read. -/
def anyUnstamped : List (List Line) → Except TimeError Bool
  | [] => .ok false
  | block :: blocks => do
    match ← blockTimestamp block with
    | none => return true
    | some _ => anyUnstamped blocks

/-- What a block is sorted by. -/
def sortValue (block : List Line) : Int :=
  match blockTimestamp block with
  | .ok (some value) => value
  | _ => datetimeMin

/-- The section in order, and whether it was skipped. -/
def sortSection (lines : List Line) : Except TimeError (List Line × Bool) := do
  let (front, blocks) := parseBulletBlocks lines
  if blocks = [] then return (lines, false)
  if ← anyUnstamped blocks then return (lines, true)
  if mixesTimestampFrames blocks then return (lines, true)
  return (front ++ (Canonical.descending sortValue blocks).flatten, false)

/-! ## Documents -/

/-- What sorting the sections has done so far. -/
structure Sorting where
  updated : List Line
  changed : Bool := false
  skipped : Bool := false

/-- One section sorted, and put back in its place. -/
def spliceSection (sorting : Sorting) (bounds : Nat × Nat) : Except TimeError Sorting := do
  let lines := slice sorting.updated bounds.1 bounds.2
  let (sorted, sectionSkipped) ← sortSection lines
  let skipped := sorting.skipped || sectionSkipped
  if sorted = lines then return { sorting with skipped }
  return ⟨sorting.updated.take bounds.1 ++ sorted ++ sorting.updated.drop bounds.2, true, skipped⟩

/-- Every section, the last one first. -/
def sortUpdateHistorySections (lines : List Line) : Except TimeError Sorting :=
  (updateHistorySections lines).reverse.foldlM spliceSection { updated := lines }

/-- The text of the file behind the fixer, and what it reports. -/
structure Fixed where
  text : List Char
  changed : Bool
  skipped : Bool

/-- A file, sorted and written where it changed. -/
def fixFile (content : List Char) (dryRun : Bool) : Except TimeError Fixed := do
  let text := Lines.universalNewlines content
  let sorting ← sortUpdateHistorySections (Lines.splitlines text)
  let written := Lines.written sorting.updated (text.getLast? = some '\n')
  return ⟨if sorting.changed ∧ dryRun = false then written else content, sorting.changed,
    sorting.skipped⟩

end AgentsRemember.History
