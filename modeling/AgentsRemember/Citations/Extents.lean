import AgentsRemember.Citations.Anchors
import AgentsRemember.Citations.Reopen

/-!
# Citations — Extents

The ranges of a file that an anchor occupies. A symbol has the constructs that
bind it or else the runs of lines that mention it, a heading its section, and a
quote the lines it occupies in the collapsed text of the file or in a block of
line comments; a quote that is an argument is widened to its call. What binds
a symbol and what is an argument is read off a syntax tree.
-/

namespace AgentsRemember.Citations

open Lines (isSpace)

/-- The lines of a range, put together: `Sources.body`. -/
def bodyOf (lines : List (List Char)) (start stop : Nat) : List Char :=
  ['\n'].intercalate ((lines.take stop).drop (start - 1))

/-! ## Syntax trees -/

/-- A direct string argument, and the lines of its call. -/
structure CallLiteral where
  text : List Char
  start : Nat
  stop : Nat
  argumentStartByte : Nat
  argumentEndByte : Nat

/-- What syntax trees tell of a file. A name that is spelled as an identifier
is bound where it stands as a token. -/
structure Grammar where
  definitions : String → List (List Char) → List (String × List (Nat × Nat))
  callArgumentLiterals : String → List (List Char) → List CallLiteral
  bound_token : ∀ path lines name, ((definitions path lines).lookup name).getD [] ≠ [] →
    isIdentifier name.toList = true →
    name.toList ∈ identifiers (['\n'].intercalate lines)

/-- A language without a grammar. -/
def Grammar.plain : Grammar where
  definitions _ _ := []
  callArgumentLiterals _ _ := []
  bound_token _ _ _ h _ := absurd rfl h

/-- The kind as a message has it. -/
def ExtentKind.name : ExtentKind → String
  | .definition => "definition"
  | .occurrence => "occurrence"
  | .headed => "section"
  | .quoted => "quoted"
  | .call => "call"

/-! ## Symbols -/

/-- `definitions`: what the file binds, with the extents of the constructs. -/
def definitions (grammar : Grammar) (path : String) (lines : List (List Char)) :
    List (String × List Extent) :=
  (grammar.definitions path lines).map fun e =>
    (e.1, e.2.map fun span => ⟨span.1, span.2, .definition⟩)

/-- One more line that holds the pattern. -/
def extendRun (found : List Extent) (line : Nat) : List Extent :=
  match found.getLast? with
  | some last =>
    if last.stop = line - 1 then found.dropLast ++ [⟨last.start, line, .occurrence⟩]
    else found ++ [⟨line, line, .occurrence⟩]
  | none => found ++ [⟨line, line, .occurrence⟩]

/-- The runs of lines that mention a symbol. -/
def occurrenceRuns (symbol : List Char) (lines : List (List Char)) : List Extent :=
  let hits := (lines.zipIdx.filter fun e => wholeIdentifier symbol e.1).map fun e => e.2 + 1
  hits.foldl extendRun []

/-- Where a symbol is bound, or else where it is mentioned. -/
def symbolExtents (grammar : Grammar) (name : String) (path : String)
    (lines : List (List Char)) : List Extent :=
  let bound := ((definitions grammar path lines).lookup name).getD []
  if bound ≠ [] then bound else occurrenceRuns name.toList lines

/-! ## Headings -/

/-- The depth of a stripped line that opens a section: `^(#{1,6})\s`. -/
def headingDepth (line : List Char) : Option Nat :=
  let depth := (line.takeWhile (· == '#')).length
  if 1 ≤ depth ∧ depth ≤ 6 ∧ (line.dropWhile (· == '#')).head?.any isSpace then some depth
  else none

/-- The number and the depth of every heading, in the order of the lines. -/
def headingLevels (unfenced : List (List Char × Nat)) : List (Nat × Nat) :=
  unfenced.filterMap fun e => (headingDepth (Lines.strip e.1)).map fun depth => (e.2, depth)

/-- The sections under a heading, its levels given. -/
def headingExtentsIn (heading : List Char) (lines : List (List Char))
    (levels : List (Nat × Nat)) : List Extent :=
  let opening := (heading.takeWhile (· == '#')).length
  (levels.filter fun e => Lines.strip (lines.getD e.1 []) == heading).map fun e =>
    let closing := ((levels.find? fun later => e.1 < later.1 && later.2 ≤ opening).map
      Prod.fst).getD lines.length
    ⟨e.1 + 1, closing, .headed⟩

/-- The sections under a heading. -/
def headingExtents (heading : List Char) (lines : List (List Char)) : List Extent :=
  headingExtentsIn heading lines (headingLevels (unfencedLines lines))

/-! ## Streams of words -/

/-- The bytes of a text. -/
def utf8Length (s : List Char) : Nat := (s.map Char.utf8Size).sum

/-- The offset of every line in bytes, one byte for each line end. -/
def sourceLineStarts (width : Nat) : List (List Char) → List Nat
  | [] => []
  | line :: lines => width :: sourceLineStarts (width + utf8Length line + 1) lines

/-- A word of a file, where it stands there. -/
structure SourceWord where
  line : Nat
  sourceByteStart : Nat
  text : List Char

/-- A word and where it stands in the collapsed text. -/
structure WordMark extends SourceWord where
  collapsedStart : Nat
  collapsedEnd : Nat

/-- The words of a text, and where each of them came from. -/
structure CollapsedText where
  text : List Char
  marks : List WordMark

/-- Words laid end to end from an offset on. -/
def layOut (width : Nat) : List SourceWord → List WordMark
  | [] => []
  | word :: rest =>
    ⟨word, width, width + word.text.length⟩ :: layOut (width + word.text.length + 1) rest

/-- The words one after the other. -/
def stream (words : List SourceWord) : CollapsedText :=
  ⟨Words.unwords (words.map SourceWord.text), layOut 0 words⟩

/-- The words of a line from an offset on. -/
def lineWords (starts : List Nat) (skip : Nat) (entry : List Char × Nat) : List SourceWord :=
  (Words.tokensFrom skip (entry.1.drop skip)).map fun token =>
    ⟨entry.2 + 1, starts.getD entry.2 0 + utf8Length (entry.1.take token.1), token.2⟩

/-- A file, collapsed. -/
def collapsed (lines : List (List Char)) : CollapsedText :=
  stream (lines.zipIdx.flatMap (lineWords (sourceLineStarts 0 lines) 0))

/-- A block that ends, if it has a word. -/
def flushBlock (block : List SourceWord) : List CollapsedText :=
  if block = [] then [] else [stream block]

/-- The comment blocks from here on. -/
def blocksFrom (starts : List Nat) (block : List SourceWord) :
    List (List Char × Nat) → List CollapsedText
  | [] => flushBlock block
  | entry :: rest =>
    match commentMark entry.1 with
    | none => flushBlock block ++ blocksFrom starts [] rest
    | some skip => blocksFrom starts (block ++ lineWords starts skip entry) rest

/-- The blocks of line comments, each collapsed. -/
def lineCommentBlocks (lines : List (List Char)) : List CollapsedText :=
  blocksFrom (sourceLineStarts 0 lines) [] lines.zipIdx

/-! ## Quotes -/

/-- A quote found, by lines and by bytes. -/
structure QuoteMatch where
  start : Nat
  stop : Nat
  sourceByteStart : Nat
  sourceByteEnd : Nat
deriving DecidableEq

/-- The lines of a quote. -/
def QuoteMatch.extent (found : QuoteMatch) : Extent := ⟨found.start, found.stop, .quoted⟩

/-- The word that an offset lies in. There is none at a blank, and then the
search of a quote stops with an error. -/
def wordMarkAt (marks : List WordMark) (offset : Nat) : Option WordMark :=
  let below := fun i => ((marks[i]?).map fun mark => decide (mark.collapsedStart ≤ offset)).getD false
  match Words.bisect below 0 marks.length with
  | 0 => none
  | low + 1 => (marks[low]?).filter fun found => decide (offset < found.collapsedEnd)

/-- The occurrence from one offset up to another. -/
def quoteMatchAt (marks : List WordMark) (offset stop : Nat) : Option QuoteMatch := do
  let first ← wordMarkAt marks offset
  let last ← wordMarkAt marks (stop - 1)
  some
    { start := first.line
      stop := last.line
      sourceByteStart :=
        first.sourceByteStart + utf8Length (first.text.take (offset - first.collapsedStart))
      sourceByteEnd := last.sourceByteStart + utf8Length (last.text.take (stop - last.collapsedStart)) }

/-- Every place of a quote in a collapsed text. -/
def quoteMatchesIn (quote : List Char) (words : CollapsedText) : Option (List QuoteMatch) :=
  let target := normalised quote
  if target = [] then some []
  else (Words.occurrences target words.text).mapM fun offset =>
    quoteMatchAt words.marks offset (offset + target.length)

/-- What a match is told by. -/
def QuoteMatch.key (found : QuoteMatch) : List Nat :=
  [found.sourceByteStart, found.sourceByteEnd, found.start, found.stop]

/-- The places of a quote in the file and in its comments. -/
def allQuoteMatches (quote : List Char) (words : CollapsedText) (comments : List CollapsedText) :
    Option (List QuoteMatch) := do
  let raw ← quoteMatchesIn quote words
  let blocks ← comments.mapM (quoteMatchesIn quote)
  some ((raw ++ blocks.flatten).mergeSort fun a b => decide (a.key ≤ b.key)).eraseDups

/-- The lines of the matches, each once. -/
def quoteMatchExtents (found : List QuoteMatch) : List Extent :=
  (found.map QuoteMatch.extent).eraseDups

/-- The lines a quote occupies. -/
def quoteExtents (quote : List Char) (lines : List (List Char)) : Option (List Extent) :=
  (allQuoteMatches quote (collapsed lines) (lineCommentBlocks lines)).map quoteMatchExtents

/-- The order of the extents. -/
def Extent.before (a b : Extent) : Bool :=
  a.start < b.start || a.start == b.start && (a.stop < b.stop ||
    a.stop == b.stop && decide (a.kind.name ≤ b.kind.name))

/-- The occurrences inside an argument give way to its call. -/
def covered (calls : List CallLiteral) (found : QuoteMatch) : Bool :=
  calls.any fun call => call.argumentStartByte ≤ found.sourceByteStart &&
    found.sourceByteEnd ≤ call.argumentEndByte

/-- A quote that is an argument is widened to its call. -/
def widenedQuotes (quote : String) (found : List QuoteMatch) (calls : List CallLiteral) :
    List Extent :=
  let holding := calls.filter fun call => Anchor.occursIn ⟨.quote, quote⟩ call.text
  -- the place of a match in the file alone decides, so no set of places is kept
  let bare := found.filter fun one => !covered holding one
  ((holding.map fun call => (⟨call.start, call.stop, .call⟩ : Extent)) ++
    bare.map QuoteMatch.extent).mergeSort Extent.before |>.eraseDups

/-- The extents of a quote in a file. -/
def quoteExtentsForPath (grammar : Grammar) (quote : String) (path : String)
    (lines : List (List Char)) : Option (List Extent) :=
  (allQuoteMatches quote.toList (collapsed lines) (lineCommentBlocks lines)).map fun found =>
    widenedQuotes quote found (grammar.callArgumentLiterals path lines)

/-- The extents of an anchor, by its kind. -/
def anchorExtents (grammar : Grammar) (anchor : Anchor) (path : String)
    (lines : List (List Char)) : Option (List Extent) :=
  match anchor.kind with
  | .symbol => some (symbolExtents grammar anchor.text path lines)
  | .heading => some (headingExtents anchor.text.toList lines)
  | .quote => quoteExtentsForPath grammar anchor.text path lines

/-! ## A file under many anchors -/

/-- One file, with what is derived from all of it once it was needed. -/
structure FileView where
  path : String
  lines : List (List Char)
  names : Option (List (List Char)) := none
  defined : Option (List (String × List Extent)) := none
  words : Option CollapsedText := none
  comments : Option (List CollapsedText) := none
  levels : Option (List (Nat × Nat)) := none
  calls : Option (List CallLiteral) := none

namespace FileView

/-- What is derived from the file when it is first asked for. -/
def once {α : Type} (slot : FileView → Option α) (keep : FileView → α → FileView)
    (derive : FileView → α) (view : FileView) : α × FileView :=
  match slot view with
  | some value => (value, view)
  | none => (derive view, keep view (derive view))

/-- The identifiers of a file, read once. -/
def readNames : FileView → List (List Char) × FileView :=
  once names (fun view names => { view with names := some names })
    fun view => identifiers (['\n'].intercalate view.lines)

/-- The definitions of a file, read once. -/
def readDefined (grammar : Grammar) : FileView → List (String × List Extent) × FileView :=
  once defined (fun view defined => { view with defined := some defined })
    fun view => definitions grammar view.path view.lines

/-- The collapsed file, read once. -/
def readWords : FileView → CollapsedText × FileView :=
  once words (fun view words => { view with words := some words }) fun view => collapsed view.lines

/-- The comment blocks, read once. -/
def readComments : FileView → List CollapsedText × FileView :=
  once comments (fun view comments => { view with comments := some comments })
    fun view => lineCommentBlocks view.lines

/-- The headings, read once. -/
def headings : FileView → List (Nat × Nat) × FileView :=
  once levels (fun view levels => { view with levels := some levels })
    fun view => headingLevels (unfencedLines view.lines)

/-- The call arguments, read once. -/
def readCalls (grammar : Grammar) : FileView → List CallLiteral × FileView :=
  once calls (fun view calls => { view with calls := some calls })
    fun view => grammar.callArgumentLiterals view.path view.lines

/-- The name test comes first: a file that does not have the name is not parsed. -/
def symbol (grammar : Grammar) (name : String) (view : FileView) : List Extent × FileView :=
  let asked := view.readNames
  if name.toList ∉ asked.1 then ([], asked.2)
  else
    let parsed := asked.2.readDefined grammar
    let bound := (parsed.1.lookup name).getD []
    if bound ≠ [] then (bound, parsed.2) else (occurrenceRuns name.toList parsed.2.lines, parsed.2)

/-- The extents of an anchor, over what was read already. -/
def extents (grammar : Grammar) (anchor : Anchor) (view : FileView) :
    Option (List Extent) × FileView :=
  match anchor.kind with
  | .symbol =>
    let answer := view.symbol grammar anchor.text
    (some answer.1, answer.2)
  | .heading =>
    let levels := view.headings
    (some (headingExtentsIn anchor.text.toList levels.2.lines levels.1), levels.2)
  | .quote =>
    let words := view.readWords
    let comments := words.2.readComments
    match allQuoteMatches anchor.text.toList words.1 comments.1 with
    | none => (none, comments.2)
    | some found =>
      let calls := comments.2.readCalls grammar
      (some (widenedQuotes anchor.text found calls.1), calls.2)

/-- A view that was asked about some anchors. -/
def after (grammar : Grammar) (path : String) (lines : List (List Char)) (asked : List Anchor) :
    FileView :=
  asked.foldl (fun view anchor => (view.extents grammar anchor).2) { path := path, lines := lines }

end FileView

end AgentsRemember.Citations
