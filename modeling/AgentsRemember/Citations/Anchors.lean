import AgentsRemember.Citations.Sources
import AgentsRemember.Foundation.Words

/-!
# Citations — Anchors

Whether a text holds an anchor: a symbol as a whole identifier, a heading as a
line, a quote with white space collapsed and without the comment marks that
open lines. And the lines of a document outside its fences.
-/

namespace AgentsRemember.Citations

open Lines (isSpace)

/-! ## Quotes -/

/-- The end of the mark of a line comment at the head of a line, with the white
space around it: `^\s*//\s?`. -/
def commentMark (line : List Char) : Option Nat :=
  match line.dropWhile isSpace with
  | '/' :: '/' :: rest =>
    some ((line.takeWhile isSpace).length + 2 + if rest.head?.any isSpace then 1 else 0)
  | _ => none

/-- The line behind its comment mark. -/
def withoutMark (line : List Char) : List Char := line.drop ((commentMark line).getD 0)

/-- White space collapsed. -/
def normalised (text : List Char) : List Char := Words.collapse text

/-- A quote without comment marks, white space collapsed. -/
def quoteNormalised (text : List Char) : List Char :=
  normalised (['\n'].intercalate ((Lines.splitlines text).map withoutMark))

/-! ## Symbols -/

/-- What may stand in an identifier. -/
def isIdentifierChar (c : Char) : Bool := c.isAlphanum || c == '_' || c == '$'

/-- What may begin an identifier. -/
def isIdentifierStart (c : Char) : Bool := c.isAlpha || c == '_' || c == '$'

/-- Whether a text begins with the symbol, as a complete identifier. -/
def standsAlone (symbol : List Char) (before : Option Char) (text : List Char) : Bool :=
  !before.any isIdentifierChar && symbol.isPrefixOf text &&
    !((text.drop symbol.length).head?.any isIdentifierChar)

/-- The symbol, from this place on. -/
def searchFrom (symbol : List Char) (before : Option Char) : List Char → Bool
  | [] => standsAlone symbol before []
  | c :: rest => standsAlone symbol before (c :: rest) || searchFrom symbol (some c) rest

/-- The symbol stands in the text as a whole identifier. -/
def wholeIdentifier (symbol text : List Char) : Bool := searchFrom symbol none text

/-- The checker's one test. -/
def Anchor.occursIn (anchor : Anchor) (body : List Char) : Bool :=
  match anchor.kind with
  | .symbol => wholeIdentifier anchor.text.toList body
  | .heading => (Lines.splitlines body).any fun line => Lines.strip line == anchor.text.toList
  | .quote => decide (normalised anchor.text.toList <:+: quoteNormalised body)

/-- The identifiers of a text, from left to right: `IDENTIFIER_PATTERN.findall`. -/
def identifiers : List Char → List (List Char)
  | [] => []
  | c :: rest =>
    if isIdentifierStart c then
      (c :: rest.takeWhile isIdentifierChar) :: identifiers (rest.dropWhile isIdentifierChar)
    else identifiers rest
termination_by text => text.length
decreasing_by
  · have := (List.dropWhile_sublist isIdentifierChar (l := rest)).length_le
    simp only [List.length_cons]
    omega
  · simp

/-- `IDENTIFIER_PATTERN.fullmatch` -/
def isIdentifier : List Char → Bool
  | [] => false
  | c :: rest => isIdentifierStart c && rest.all isIdentifierChar

/-! ## Fences -/

/-- The character and the length of the mark, when a line opens or closes a fence. -/
def fenceDelimiter (line : List Char) : Option (Char × Nat) :=
  let stripped := line.dropWhile (· == ' ')
  if 3 < line.length - stripped.length then none
  else if ['\x60', '\x60', '\x60'].isPrefixOf stripped then
    some ('\x60', (stripped.takeWhile (· == '\x60')).length)
  else if ['~', '~', '~'].isPrefixOf stripped then
    some ('~', (stripped.takeWhile (· == '~')).length)
  else none

/-- The numbered lines outside fences, from inside the open fence if there is one. -/
def unfencedFrom (openFence : Option (Char × Nat)) :
    List (List Char × Nat) → List (List Char × Nat)
  | [] => []
  | (line, index) :: rest =>
    match openFence, fenceDelimiter line with
    | none, none => (line, index) :: unfencedFrom none rest
    | none, some delimiter => unfencedFrom (some delimiter) rest
    | some opened, none => unfencedFrom (some opened) rest
    | some opened, some delimiter =>
      if delimiter.1 = opened.1 ∧ opened.2 ≤ delimiter.2 then unfencedFrom none rest
      else unfencedFrom (some opened) rest

/-- The lines outside fences, with their numbers. -/
def unfencedLines (lines : List (List Char)) : List (List Char × Nat) :=
  unfencedFrom none lines.zipIdx

theorem mem_unfencedFrom {openFence : Option (Char × Nat)} {lines : List (List Char × Nat)}
    {entry : List Char × Nat} (h : entry ∈ unfencedFrom openFence lines) : entry ∈ lines := by
  induction lines generalizing openFence with
  | nil => cases h
  | cons first lines ih =>
    obtain ⟨line, index⟩ := first
    unfold unfencedFrom at h
    split at h
    · rcases List.mem_cons.mp h with rfl | h
      · exact List.mem_cons_self
      · exact List.mem_cons_of_mem _ (ih h)
    · exact List.mem_cons_of_mem _ (ih h)
    · exact List.mem_cons_of_mem _ (ih h)
    · split at h
      · exact List.mem_cons_of_mem _ (ih h)
      · exact List.mem_cons_of_mem _ (ih h)

/-- A line outside the fences is the line of its number. -/
theorem getElem?_of_mem_unfencedLines {lines : List (List Char)} {line : List Char} {index : Nat}
    (h : (line, index) ∈ unfencedLines lines) : lines[index]? = some line :=
  List.mem_zipIdx_iff_getElem?.mp (mem_unfencedFrom h)

end AgentsRemember.Citations
