import AgentsRemember.Foundation.Attempts
import AgentsRemember.Foundation.LineEnds
import AgentsRemember.Foundation.Stamps

/-!
# History — Order

The checker of Update History sections: where a section stands, what its bullets
say, and which of them are not newest first. Stamps with an offset are compared
in UTC, those without only with each other. An instant is counted in seconds
from the first of January 1970.
-/

namespace AgentsRemember.History

/-- A line by its characters. -/
abbrev Line := List Char

/-! ## Patterns -/

/-- The first of the ten decimal digits of each script. -/
def decimals : List Nat :=
  [0x30, 0x660, 0x6f0, 0x7c0, 0x966, 0x9e6, 0xa66, 0xae6, 0xb66, 0xbe6, 0xc66, 0xce6, 0xd66, 0xde6,
    0xe50, 0xed0, 0xf20, 0x1040, 0x1090, 0x17e0, 0x1810, 0x1946, 0x19d0, 0x1a80, 0x1a90, 0x1b50,
    0x1bb0, 0x1c40, 0x1c50, 0xa620, 0xa8d0, 0xa900, 0xa9d0, 0xa9f0, 0xaa50, 0xabf0, 0xff10,
    0x104a0, 0x10d30, 0x11066, 0x110f0, 0x11136, 0x111d0, 0x112f0, 0x11450, 0x114d0, 0x11650,
    0x116c0, 0x11730, 0x118e0, 0x11950, 0x11c50, 0x11d50, 0x11da0, 0x11f50, 0x16a60, 0x16ac0,
    0x16b50, 0x1d7ce, 0x1d7d8, 0x1d7e2, 0x1d7ec, 0x1d7f6, 0x1e140, 0x1e2f0, 0x1e4f0, 0x1e950,
    0x1fbf0]

/-- A decimal digit of any script. -/
def isDecimal (c : Char) : Bool :=
  decimals.any fun first => decide (first ≤ c.toNat) && decide (c.toNat < first + 10)

/-- What stands behind a mark: white space, and more. The rest comes stripped. -/
def behindMark : List Char → Option (List Char)
  | c :: d :: rest => if Lines.isSpace c then some (Lines.strip (d :: rest)) else none
  | _ => none

/-- The marks of a heading and its title, stripped. -/
def headingPattern (line : Line) : Option (Nat × List Char) :=
  let marks := line.takeWhile (· = '#')
  if 1 ≤ marks.length ∧ marks.length ≤ 6 then
    (behindMark (line.drop marks.length)).map fun title => (marks.length, title)
  else none

/-- The body of a bullet, stripped. -/
def bulletPattern (line : Line) : Option (List Char) :=
  match line.dropWhile Lines.isSpace with
  | mark :: rest => if mark = '-' ∨ mark = '*' then behindMark rest else none
  | [] => none

/-- One piece of a pattern: a decimal digit, or the character itself. -/
def pieceMatches : Char → Char → Bool
  | 'd', c => isDecimal c
  | piece, c => piece = c

/-- What the pieces match at the front, and what is left. -/
def matchPieces : List Char → List Char → Option (List Char × List Char)
  | [], text => some ([], text)
  | piece :: pieces, c :: text =>
    if pieceMatches piece c then
      (matchPieces pieces text).map fun (matched, rest) => (c :: matched, rest)
    else none
  | _ :: _, [] => none

/-- A UTC offset and what follows it. -/
def matchOffset (text : List Char) : Option (List Char × List Char) :=
  ["Z", "+dd:dd", "+dddd", "-dd:dd", "-dddd"].findSome? fun pieces =>
    matchPieces pieces.toList text

/-- With the piece when it is there, and then without it. -/
def optionally (piece : List Char → Option (List Char × List Char)) (text : List Char) :
    List (List Char × List Char) :=
  (piece text).toList ++ [([], text)]

/-- A colon, white space or nothing may follow a timestamp. -/
def terminated : List Char → Bool
  | [] => true
  | c :: _ => c = ':' || Lines.isSpace c

/-- The timestamp a text begins with. -/
def timestampPattern (text : List Char) : Option (List Char) := do
  let (clock, rest) ← matchPieces "dddd-dd-ddTdd:dd".toList text
  let tails := (optionally (matchPieces ":dd".toList) rest).flatMap fun (seconds, rest) =>
    (optionally matchOffset rest).map fun (offset, rest) => (clock ++ seconds ++ offset, rest)
  (tails.find? fun (_, rest) => terminated rest).map Prod.fst

/-- The timestamp of a bullet. -/
def parseTimestamp (text : List Char) : Option (List Char) := timestampPattern (Lines.strip text)

/-- Whether a timestamp states the frame it is written in. -/
def hasOffset (timestamp : List Char) : Bool :=
  timestamp.tails.any fun tail => (matchOffset tail).any fun (_, rest) => rest = []

/-! ## Instants -/

/-- A text that is no date, or an instant that no date is for. -/
inductive TimeError where
  | value | overflow

/-- The days of a month. -/
def daysInMonth (year month : Int) : Int :=
  if month = 2 then
    if year % 4 = 0 ∧ (year % 100 ≠ 0 ∨ year % 400 = 0) then 29 else 28
  else if month ∈ [4, 6, 9, 11] then 30 else 31

/-- The first instant there is a date for. -/
def datetimeMin : Int := Stamps.daysFromCivil 1 1 1 * 86400

/-- The last instant there is a date for. -/
def datetimeMax : Int := Stamps.daysFromCivil 10000 1 1 * 86400 - 1

/-- Of the offset behind the clock time. -/
def isoOffset : List Char → Option (Option Int)
  | [] => some none
  | [sign, h, h', ':', m, m'] => do
    let seconds := (← Stamps.digits [h, h']) * 3600 + (← Stamps.digits [m, m']) * 60
    if seconds < 86400 then
      if sign = '+' then some (some seconds)
      else if sign = '-' then some (some (-seconds)) else none
    else none
  | _ => none

/-- Of the clock time, and of the offset when there is one. -/
def fromIsoFormat (text : List Char) : Option (Int × Option Int) := do
  match text with
  | y :: y' :: y'' :: y''' :: '-' :: mo :: mo' :: '-' :: d :: d' :: 'T' :: h :: h' :: ':' ::
      mi :: mi' :: rest => do
    let year ← Stamps.digits [y, y', y'', y''']
    let month ← Stamps.digits [mo, mo']
    let day ← Stamps.digits [d, d']
    let hour ← Stamps.digits [h, h']
    let minute ← Stamps.digits [mi, mi']
    let (second, rest) ← match rest with
      | ':' :: s :: s' :: rest => (Stamps.digits [s, s']).map fun second => (second, rest)
      | rest => some (0, rest)
    let offset ← isoOffset rest
    if 1 ≤ year ∧ 1 ≤ month ∧ month ≤ 12 ∧ 1 ≤ day ∧ day ≤ daysInMonth year month ∧ hour ≤ 23 ∧
        minute ≤ 59 ∧ second ≤ 59 then
      some (Stamps.daysFromCivil year month day * 86400 + hour * 3600 + minute * 60 + second, offset)
    else none
  | _ => none

/-- An offset of four digits gets its colon. -/
def colonOffset (text : List Char) : List Char :=
  let start := text.length - 5
  match matchPieces "dddd".toList (text.drop (start + 1)) with
  | some (_, []) =>
    if text.getD start ' ' = '+' ∨ text.getD start ' ' = '-' then
      text.take (text.length - 2) ++ ':' :: text.drop (text.length - 2)
    else text
  | _ => text

/-- A value to compare with those of its own frame; one with an offset is in UTC. -/
def datetimeValue (timestamp : List Char) : Except TimeError Int :=
  if timestamp = [] then .ok datetimeMax
  else
    let text := timestamp.flatMap fun c => if c = 'Z' then "+00:00".toList else [c]
    match fromIsoFormat (colonOffset text) with
    | none => .error .value
    | some (clock, none) => .ok clock
    | some (clock, some offset) =>
      if datetimeMin ≤ clock - offset ∧ clock - offset ≤ datetimeMax then .ok (clock - offset)
      else .error .overflow

/-! ## Sections -/

/-- A heading of the first or of the second level ends a section. -/
def endsSection (line : Line) : Bool :=
  (headingPattern line).any fun (marks, _) => marks ≤ 2

/-- The heading of a section. -/
def opensHistory (line : Line) : Bool :=
  (headingPattern line).any fun (marks, title) =>
    marks = 2 ∧ Lines.strip title = "Update History".toList

/-- The lines from a section's first to the one behind its last. -/
def updateHistorySections (lines : List Line) : List (Nat × Nat) :=
  lines.zipIdx.filterMap fun (line, index) =>
    if opensHistory line then
      some (index + 1, index + 1 + (lines.drop (index + 1)).findIdx endsSection)
    else none

/-- The part of a list between two places. -/
def slice {α : Type} (xs : List α) (start stop : Nat) : List α := (xs.drop start).take (stop - start)

/-- An entry of a section. -/
structure HistoryEntry where
  line : Nat
  timestamp : List Char
  value : Int
  isValid : Bool := true
  hasOffset : Bool := true

/-- An entry without a timestamp. -/
def malformedEntry (line : Nat) : HistoryEntry :=
  { line, timestamp := [], value := datetimeMax, isValid := false }

/-- An entry whose timestamp is none. -/
def invalidEntry (line : Nat) (timestamp : List Char) : HistoryEntry :=
  { line, timestamp, value := datetimeMax, isValid := false }

/-- What a bullet says; an instant that no date is for stops the reading. -/
def entryOf (line : Nat) (body : List Char) : Except TimeError HistoryEntry :=
  match parseTimestamp body with
  | none => .ok (malformedEntry line)
  | some timestamp =>
    match datetimeValue timestamp with
    | .ok value => .ok { line, timestamp, value, hasOffset := hasOffset timestamp }
    | .error .value => .ok (invalidEntry line timestamp)
    | .error .overflow => .error .overflow

/-- The entries of the lines from a place on. -/
def entriesFrom : Nat → List Line → Except TimeError (List HistoryEntry)
  | _, [] => .ok []
  | index, line :: rest =>
    match bulletPattern line with
    | none => entriesFrom (index + 1) rest
    | some body => do
      let entry ← entryOf (index + 1) body
      return entry :: (← entriesFrom (index + 1) rest)

/-- The entries of a section. -/
def parseEntries (lines : List Line) (start stop : Nat) : Except TimeError (List HistoryEntry) :=
  entriesFrom start (slice lines start stop)

/-! ## Findings -/

/-- A finding of the checker. -/
structure QualityFinding where
  check : String := "style.update_history.history_order"
  path : String
  line : Nat
  severity : String := "warning"
  code : String
  message : String
  timestamp : Option (List Char) := none
  previousTimestamp : Option (List Char) := none
  previousLine : Option Nat := none
  reportOnly : Bool := false

/-- The finding for a stamp without an offset. -/
def naiveFinding (entry : HistoryEntry) (relative : String) : QualityFinding :=
  { path := relative, line := entry.line, code := "update_history_timestamp_naive"
    message := "Update History timestamp states no UTC offset, so it cannot be ordered " ++
      "against the offset-bearing entries around it. Append the author's offset " ++
      "(for example '+02:00')."
    timestamp := some entry.timestamp }

/-- The finding for an entry out of order. -/
def orderFinding (entry : HistoryEntry) (relative : String) (previous : HistoryEntry) :
    QualityFinding :=
  { path := relative, line := entry.line, code := "update_history_not_newest_first"
    message := "Update History entries are not newest-first."
    timestamp := some entry.timestamp
    previousTimestamp := some previous.timestamp
    previousLine := some previous.line }

/-- The findings for one entry. -/
def entryFindings (entry : HistoryEntry) (relative : String) (previous : Option HistoryEntry)
    (isTouched : Bool) : List QualityFinding :=
  if entry.timestamp = [] then
    [{ path := relative, line := entry.line, code := "update_history_timestamp_missing"
       message := "Update History bullet must start with an ISO timestamp." }]
  else if entry.isValid = false then
    [{ path := relative, line := entry.line, code := "update_history_timestamp_invalid"
       message := "Update History timestamp must be a valid ISO datetime."
       timestamp := some entry.timestamp }]
  else
    (if entry.hasOffset = false ∧ isTouched then [naiveFinding entry relative] else []) ++
      match previous with
      | some previous =>
        if previous.value < entry.value then [orderFinding entry relative previous] else []
      | none => []

/-- The last valid entry of each frame is what the next of that frame is compared with. -/
def orderFindings (relative : String) (covers : Nat → Bool) :
    (Bool → Option HistoryEntry) → List HistoryEntry → List QualityFinding
  | _, [] => []
  | previous, entry :: entries =>
    entryFindings entry relative (previous entry.hasOffset) (covers entry.line) ++
      orderFindings relative covers
        (if entry.timestamp ≠ [] ∧ entry.isValid then
          Function.update previous entry.hasOffset (some entry) else previous) entries

/-- The findings for one section. -/
def sectionFindings (relative : String) (covers : Nat → Bool) (lines : List Line)
    (bounds : Nat × Nat) : Except TimeError (List QualityFinding) :=
  (parseEntries lines bounds.1 bounds.2).map (orderFindings relative covers fun _ => none)

/-- The findings of a document, of which the lines that changed are known. -/
def checkFile (relative : String) (covers : Nat → Bool) (text : List Char) :
    Except TimeError (List QualityFinding) := do
  let lines := Lines.splitlines (Lines.universalNewlines text)
  let findings ← (updateHistorySections lines).mapM (sectionFindings relative covers lines)
  return findings.flatten

end AgentsRemember.History
