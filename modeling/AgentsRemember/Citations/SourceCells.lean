import AgentsRemember.Citations.Sources
import AgentsRemember.Foundation.Lines

/-!
# Citations — SourceCells

The source list of a claim, as a document writes it and as it is read back.
Sources are parted by a semicolon or a middle dot outside code spans, and a
source is a path with a range of lines. What the fixer writes is read back as
it was meant when nothing in it reads as a mark of the list.
-/

namespace AgentsRemember.Citations

open Lines (isSpace)

/-- The mark of a code span. -/
def backtick : Char := '\x60'

/-! ## Code spans -/

/-- Every maximal run of backticks: where it starts, and its length. -/
def backtickRunsFrom (index : Nat) : List Char → List (Nat × Nat)
  | [] => []
  | c :: rest =>
    let later := backtickRunsFrom (index + 1) rest
    if c = backtick then
      match later with
      | (start, length) :: more =>
        if start = index + 1 then (index, length + 1) :: more else (index, 1) :: later
      | [] => [(index, 1)]
    else later

/-- Runs paired with the next run of their length. Every round takes a run away. -/
def pairRuns : Nat → List (Nat × Nat) → List (Nat × Nat)
  | 0, _ => []
  | _, [] => []
  | rounds + 1, (start, length) :: rest =>
    match rest.dropWhile fun run => run.2 ≠ length with
    | [] => pairRuns rounds rest
    | closer :: more => (start, closer.1 + closer.2) :: pairRuns rounds more

/-- The code spans of a line. -/
def codeSpanRanges (line : List Char) : List (Nat × Nat) :=
  let runs := backtickRunsFrom 0 line
  pairRuns runs.length runs

/-- The place is in a code span. -/
def enclosed (index : Nat) (spans : List (Nat × Nat)) : Bool :=
  spans.any fun span => span.1 ≤ index && decide (index < span.2)

/-! ## Segments -/

/-- What parts two sources. -/
def isSeparator (c : Char) : Bool := c == ';' || c == '·'

/-- The segments of a text, from inside the one that was begun. -/
def segmentsFrom (spans : List (Nat × Nat)) (index : Nat) (piece : List Char) :
    List Char → List (List Char)
  | [] => [piece]
  | c :: rest =>
    if isSeparator c && !enclosed index spans then
      piece :: segmentsFrom spans (index + 1) [] rest
    else segmentsFrom spans (index + 1) (piece ++ [c]) rest

/-- The pieces of a source list. -/
def splitSegments (text : List Char) : List (List Char) :=
  segmentsFrom (codeSpanRanges text) 0 [] text

/-- A segment without the code span that is all of it. -/
def unwrapped (piece : List Char) : List Char :=
  let stripped := Lines.strip piece
  if codeSpanRanges stripped = [(0, stripped.length)] then
    let run := (stripped.takeWhile (· = backtick)).length
    Lines.strip ((stripped.take (stripped.length - run)).drop run)
  else stripped

/-! ## Sources -/

/-- The zeros of the scripts with decimal digits. -/
def zeros : List Nat :=
  [0x30, 0x660, 0x6f0, 0x7c0, 0x966, 0x9e6, 0xa66, 0xae6, 0xb66, 0xbe6, 0xc66, 0xce6, 0xd66,
    0xde6, 0xe50, 0xed0, 0xf20, 0x1040, 0x1090, 0x17e0, 0x1810, 0x1946, 0x19d0, 0x1a80, 0x1a90,
    0x1b50, 0x1bb0, 0x1c40, 0x1c50, 0xa620, 0xa8d0, 0xa900, 0xa9d0, 0xa9f0, 0xaa50, 0xabf0,
    0xff10, 0x104a0, 0x10d30, 0x11066, 0x110f0, 0x11136, 0x111d0, 0x112f0, 0x11450, 0x114d0,
    0x11650, 0x116c0, 0x11730, 0x118e0, 0x11950, 0x11c50, 0x11d50, 0x11da0, 0x11f50, 0x16a60,
    0x16ac0, 0x16b50, 0x1d7ce, 0x1d7d8, 0x1d7e2, 0x1d7ec, 0x1d7f6, 0x1e140, 0x1e2f0, 0x1e4f0,
    0x1e950, 0x1fbf0]

/-- The value of a decimal digit of any script. -/
def digitValue (c : Char) : Option Nat :=
  (zeros.find? fun first => first ≤ c.toNat && decide (c.toNat < first + 10)).map fun first =>
    c.toNat - first

/-- `\d+`, as a number. -/
def decimal (digits : List Char) : Option Nat :=
  if digits = [] then none
  else (digits.mapM digitValue).map fun values => values.foldl (fun n d => 10 * n + d) 0

/-- A range of lines as it is written. -/
def lineRange (digits : List Char) : Option (Nat × Nat) :=
  match digits.dropWhile (· ≠ '-') with
  | [] => (decimal digits).map fun start => (start, start)
  | _ :: last => do
    let start ← decimal (digits.takeWhile (· ≠ '-'))
    let stop ← decimal last
    some (start, max start stop)

/-- The path stays inside the repository. -/
def repoRelative (path : List Char) : Bool :=
  path.head? != some '/' && !(path.splitOn '/').contains ['.', '.'] &&
    !decide ([':', '/', '/'] <:+: path)

/-- `(\S+):(\d+)(?:-(\d+))?`: no colon stands behind the one that ends the path. -/
def parseSource (written : List Char) : Option Citation :=
  let path := (written.rdropWhile (· ≠ ':')).dropLast
  if path = [] ∨ path.any isSpace ∨ !repoRelative path then none
  else (lineRange (written.rtakeWhile (· ≠ ':'))).map fun range =>
    ⟨String.ofList written, String.ofList path, range.1, range.2⟩

/-- The spellings of nothing to cite. -/
def noCitationMarkers : List (List Char) := [[], ['-'], ['–'], ['—'], ['n', '/', 'a']]

/-- The sources of a list, and what is none. -/
def citationsIn (text : List Char) : List Citation × List (List Char) :=
  let pieces := (splitSegments text).map unwrapped
  let sources := pieces.filter fun written => !noCitationMarkers.contains (written.map Char.toLower)
  (sources.filterMap parseSource, sources.filter fun written => (parseSource written).isNone)

/-- The list as the fixer writes it. -/
def joined (sources : List String) : List Char :=
  [';', ' '].intercalate (sources.map String.toList)

/-- `f"{path}:{start}-{end}"` -/
def sourceText (path : String) (start stop : Nat) : String :=
  path ++ ":" ++ toString start ++ "-" ++ toString stop

/-! ## Reading back -/

/-- A character that neither ends a source nor is taken off one. -/
def Inert (c : Char) : Prop := isSpace c = false ∧ isSeparator c = false ∧ c ≠ backtick

theorem inert_of_all {text : List Char}
    (h : (text.all fun c => !isSpace c && !isSeparator c && c != backtick) = true) :
    ∀ c ∈ text, Inert c := by
  intro c hc
  simpa [Inert, and_assoc] using List.all_eq_true.mp h c hc

/-- A source that means the same wherever it is written. -/
structure Spelled (citation : Citation) : Prop where
  parses : parseSource citation.text.toList = some citation
  inert : ∀ c ∈ citation.text.toList, Inert c

theorem backtickRunsFrom_of_inert {text : List Char} (h : ∀ c ∈ text, c ≠ backtick) (index : Nat) :
    backtickRunsFrom index text = [] := by
  induction text generalizing index with
  | nil => rfl
  | cons c rest ih =>
    rw [backtickRunsFrom, ih (fun d hd => h d (List.mem_cons_of_mem _ hd)),
      if_neg (h c List.mem_cons_self)]

theorem codeSpanRanges_of_inert {text : List Char} (h : ∀ c ∈ text, c ≠ backtick) :
    codeSpanRanges text = [] := by
  rw [codeSpanRanges, backtickRunsFrom_of_inert h]
  rfl

theorem segmentsFrom_append {part : List Char} (h : ∀ c ∈ part, isSeparator c = false)
    (index : Nat) (piece rest : List Char) : segmentsFrom [] index piece (part ++ rest) =
      segmentsFrom [] (index + part.length) (piece ++ part) rest := by
  induction part generalizing index piece with
  | nil => simp
  | cons c part ih =>
    rw [List.cons_append, segmentsFrom, h c List.mem_cons_self]
    show segmentsFrom [] (index + 1) (piece ++ [c]) (part ++ rest) = _
    rw [ih (fun d hd => h d (List.mem_cons_of_mem _ hd)), List.length_cons, List.append_assoc,
      List.singleton_append, Nat.add_assoc, Nat.add_comm 1]

/-- The pieces of a list are its sources, all but the first behind a blank. -/
theorem segmentsFrom_joined {text : List Char} {texts : List (List Char)}
    (h : ∀ part ∈ text :: texts, ∀ c ∈ part, isSeparator c = false) (index : Nat)
    (piece : List Char) :
    segmentsFrom [] index piece ([';', ' '].intercalate (text :: texts)) =
      (piece ++ text) :: texts.map (' ' :: ·) := by
  induction texts generalizing index piece text with
  | nil =>
    have hend := segmentsFrom_append (h text (by simp)) index piece []
    rw [List.append_nil] at hend
    rw [List.intercalate_singleton, hend]
    rfl
  | cons next texts ih =>
    rw [List.intercalate_cons_cons, List.append_assoc, segmentsFrom_append (h text (by simp))]
    show (piece ++ text) :: segmentsFrom [] (index + text.length + 1) []
      ([' '] ++ [';', ' '].intercalate (next :: texts)) = _
    have hblank : ∀ c ∈ [' '], isSeparator c = false := fun c hc => by
      rw [List.mem_singleton.mp hc]
      decide
    rw [segmentsFrom_append hblank, ih fun part hpart => h part (List.mem_cons_of_mem _ hpart)]
    rfl

theorem strip_of_inert {text : List Char} (h : ∀ c ∈ text, isSpace c = false) :
    Lines.strip text = text :=
  Lines.stripBy_of_ends (fun c hc => h c (List.mem_of_head? hc))
    fun c hc => h c (List.mem_of_getLast? hc)

theorem unwrapped_of_inert {piece text : List Char} (h : ∀ c ∈ text, Inert c)
    (hpiece : Lines.strip piece = text) : unwrapped piece = text := by
  rw [unwrapped, hpiece, codeSpanRanges_of_inert fun c hc => (h c hc).2.2]
  exact if_neg (by simp)

theorem rdropWhile_of_forall {p : Char → Bool} {text : List Char} (h : ∀ c ∈ text, p c = true) :
    text.rdropWhile p = [] := by
  rw [List.rdropWhile, List.dropWhile_eq_nil_iff.mpr, List.reverse_nil]
  exact fun c hc => h c (List.mem_reverse.mp hc)

/-- What is cited has a colon, and the spellings of nothing have none. -/
theorem not_marker {written : List Char} {citation : Citation}
    (h : parseSource written = some citation) :
    noCitationMarkers.contains (written.map Char.toLower) = false := by
  have hcolon : ':' ∈ written := by
    by_contra hnone
    have hdrop : written.rdropWhile (· ≠ ':') = [] :=
      rdropWhile_of_forall fun c hc => by
        rw [decide_eq_true_eq]
        rintro rfl
        exact hnone hc
    unfold parseSource at h
    rw [hdrop] at h
    cases h
  have hlower : ':' ∈ written.map Char.toLower := List.mem_map.mpr ⟨':', hcolon, by decide⟩
  rw [← Bool.not_eq_true, List.contains_iff_mem]
  intro hmarker
  have hnone : noCitationMarkers.all (fun marker => !marker.contains ':') = true := by decide
  have hfalse := List.all_eq_true.mp hnone _ hmarker
  rw [Bool.not_eq_true', ← Bool.not_eq_true, List.contains_iff_mem] at hfalse
  exact hfalse hlower

theorem mem_intercalate {α : Type} {sep : List α} {parts : List (List α)} {x : α}
    (h : x ∈ sep.intercalate parts) : x ∈ sep ∨ ∃ part ∈ parts, x ∈ part := by
  induction parts with
  | nil => simp at h
  | cons part parts ih =>
    cases parts with
    | nil => exact .inr ⟨part, List.mem_cons_self, by simpa using h⟩
    | cons next parts =>
      rw [List.intercalate_cons_cons, List.mem_append, List.mem_append] at h
      rcases h with (h | h) | h
      · exact .inr ⟨part, List.mem_cons_self, h⟩
      · exact .inl h
      · rcases ih h with h | ⟨one, hone, h⟩
        · exact .inl h
        · exact .inr ⟨one, List.mem_cons_of_mem _ hone, h⟩

/-- A list of inert sources is split and unwrapped to them. -/
theorem pieces_joined {text : String} {texts : List String}
    (h : ∀ part ∈ text :: texts, ∀ c ∈ part.toList, Inert c) :
    (splitSegments (joined (text :: texts))).map unwrapped =
      (text :: texts).map String.toList := by
  have hbacktick : ∀ c ∈ joined (text :: texts), c ≠ backtick := by
    intro c hc
    rcases mem_intercalate hc with hc | ⟨part, hpart, hc⟩
    · rcases List.mem_pair.mp hc with rfl | rfl
      · decide
      · decide
    · obtain ⟨one, hone, rfl⟩ := List.mem_map.mp hpart
      exact (h one hone c hc).2.2
  have hpieces : ∀ part ∈ (text :: texts).map String.toList,
      ∀ c ∈ part, isSeparator c = false := by
    intro part hpart c hc
    obtain ⟨one, hone, rfl⟩ := List.mem_map.mp hpart
    exact (h one hone c hc).2.1
  have hspace : ∀ part ∈ text :: texts, Lines.strip part.toList = part.toList :=
    fun part hpart => strip_of_inert fun c hc => (h part hpart c hc).1
  have hblank : isSpace ' ' = true := by decide
  rw [splitSegments, codeSpanRanges_of_inert hbacktick, joined, List.map_cons,
    segmentsFrom_joined hpieces, List.nil_append, List.map_cons, List.map_map, List.map_map]
  congr 1
  · exact unwrapped_of_inert (h text List.mem_cons_self) (hspace text List.mem_cons_self)
  · refine List.map_congr_left fun part hpart => ?_
    have hmem := List.mem_cons_of_mem text hpart
    refine unwrapped_of_inert (h part hmem) ?_
    exact (Lines.stripBy_cons hblank part.toList).trans (hspace part hmem)

theorem parsed_texts {citations : List Citation} (h : ∀ c ∈ citations, Spelled c) :
    (citations.map fun c => c.text.toList).filterMap parseSource = citations := by
  induction citations with
  | nil => rfl
  | cons citation citations ih =>
    rw [List.map_cons, List.filterMap_cons_some (h citation List.mem_cons_self).parses,
      ih fun c hc => h c (List.mem_cons_of_mem _ hc)]

/-- The fixer's list is read back as it was meant. -/
theorem citationsIn_joined {citations : List Citation} (h : ∀ c ∈ citations, Spelled c) :
    citationsIn (joined (citations.map Citation.text)) = (citations, []) := by
  cases citations with
  | nil => decide
  | cons citation citations =>
    have hpieces := @pieces_joined citation.text (citations.map Citation.text)
      fun part hpart => by
        obtain ⟨one, hone, rfl⟩ := List.mem_map.mp
          (show part ∈ (citation :: citations).map Citation.text from hpart)
        exact (h one hone).inert
    have hsources : ((citation :: citations).map fun c => c.text.toList).filter
        (fun written => !noCitationMarkers.contains (written.map Char.toLower)) =
          (citation :: citations).map fun c => c.text.toList := by
      rw [List.filter_eq_self]
      intro written hwritten
      obtain ⟨one, hone, rfl⟩ := List.mem_map.mp hwritten
      rw [not_marker (h one hone).parses]
      rfl
    have hcells : citationsIn (joined ((citation :: citations).map Citation.text)) =
        (((citation :: citations).map fun c => c.text.toList).filterMap parseSource,
          ((citation :: citations).map fun c => c.text.toList).filter fun written =>
            (parseSource written).isNone) := by
      rw [List.map_cons, citationsIn, hpieces, ← List.map_cons, List.map_map]
      exact congrArg (fun sources : List (List Char) => (sources.filterMap parseSource,
        sources.filter fun written => (parseSource written).isNone)) hsources
    rw [hcells, parsed_texts h, List.filter_eq_nil_iff.mpr]
    intro written hwritten
    obtain ⟨one, hone, rfl⟩ := List.mem_map.mp hwritten
    rw [(h one hone).parses]
    simp

/-! ## What the fixer writes -/

/-- A path that the fixer's sources can name. -/
structure PlainPath (path : String) : Prop where
  nonempty : path.toList ≠ []
  inert : ∀ c ∈ path.toList, Inert c
  relative : repoRelative path.toList = true

theorem digitValue_of_digit {c : Char} (h : c.isDigit = true) :
    digitValue c = some (c.toNat - 48) := by
  simp only [Char.isDigit, Bool.and_eq_true, decide_eq_true_eq] at h
  obtain ⟨hlow, hhigh⟩ := h
  have hlow : 48 ≤ c.toNat := hlow
  have hhigh : c.toNat ≤ 57 := hhigh
  rw [digitValue, zeros, List.find?_cons_of_pos (by simp; omega)]
  rfl

theorem mapM_digitValue {digits : List Char} (h : ∀ c ∈ digits, c.isDigit = true) :
    digits.mapM digitValue = some (digits.map fun c => c.toNat - 48) := by
  induction digits with
  | nil => rfl
  | cons c digits ih =>
    rw [List.mapM_cons, digitValue_of_digit (h c List.mem_cons_self),
      ih fun d hd => h d (List.mem_cons_of_mem _ hd)]
    rfl

theorem isDigit_of_toDigits {n : Nat} {c : Char} (h : c ∈ Nat.toDigits 10 n) :
    c.isDigit = true := Nat.isDigit_of_mem_toDigits (by decide) (by decide) h

theorem decimal_toDigits (n : Nat) : decimal (Nat.toDigits 10 n) = some n := by
  rw [decimal, if_neg Nat.toDigits_ne_nil, mapM_digitValue fun c => isDigit_of_toDigits, Option.map_some,
    List.foldl_map]
  exact congrArg some Nat.ofDigitChars_ten_toDigits

theorem toList_toString (n : Nat) : (toString n).toList = Nat.toDigits 10 n := String.toList_ofList

theorem toList_sourceText (path : String) (start stop : Nat) :
    (sourceText path start stop).toList =
      path.toList ++ ':' :: (Nat.toDigits 10 start ++ '-' :: Nat.toDigits 10 stop) := by
  simp only [sourceText, String.toList_append, toList_toString, List.append_assoc]
  rfl

theorem lineRange_written {start stop : Nat} (h : start ≤ stop) :
    lineRange (Nat.toDigits 10 start ++ '-' :: Nat.toDigits 10 stop) = some (start, stop) := by
  have hdigits : ∀ c ∈ Nat.toDigits 10 start, decide (c ≠ '-') = true := by
    intro c hc
    have hdigit := isDigit_of_toDigits hc
    rw [decide_eq_true_eq]
    rintro rfl
    exact absurd hdigit (by decide)
  rw [lineRange, List.dropWhile_append_of_pos hdigits, List.takeWhile_append_of_pos hdigits,
    List.dropWhile_cons_of_neg (by decide), List.takeWhile_cons_of_neg (by decide),
    List.append_nil]
  simp only [decimal_toDigits, Nat.max_eq_right h, Option.bind_eq_bind, Option.bind_some]

/-- The last colon parts a source. -/
theorem parts_of_colon {path range : List Char} (h : ∀ c ∈ range, c ≠ ':') :
    (path ++ ':' :: range).rdropWhile (· ≠ ':') = path ++ [':'] ∧
      (path ++ ':' :: range).rtakeWhile (· ≠ ':') = range := by
  have hrange : ∀ c ∈ range.reverse, decide (c ≠ ':') = true :=
    fun c hc => decide_eq_true (h c (List.mem_reverse.mp hc))
  have hreverse : (path ++ ':' :: range).reverse = range.reverse ++ ':' :: path.reverse := by simp
  constructor
  · rw [List.rdropWhile, hreverse, List.dropWhile_append_of_pos hrange,
      List.dropWhile_cons_of_neg (by decide)]
    simp
  · rw [List.rtakeWhile, hreverse, List.takeWhile_append_of_pos hrange,
      List.takeWhile_cons_of_neg (by decide)]
    simp

theorem inert_of_digit {c : Char} (h : c.isDigit = true) : Inert c := by
  simp only [Char.isDigit, Bool.and_eq_true, decide_eq_true_eq] at h
  have hlow : 48 ≤ c.toNat := h.1
  have hhigh : c.toNat ≤ 57 := h.2
  have hall := @inert_of_all ((List.range 10).map fun k => Char.ofNat (48 + k)) (by decide)
  refine hall c (List.mem_map.mpr ⟨c.toNat - 48, List.mem_range.mpr (by omega), ?_⟩)
  rw [Nat.add_sub_cancel' hlow, Char.ofNat_toNat]

theorem spelled_sourceText {path : String} (hpath : PlainPath path) {start stop : Nat}
    (h : start ≤ stop) : Spelled ⟨sourceText path start stop, path, start, stop⟩ := by
  have hdigits : ∀ c ∈ Nat.toDigits 10 start ++ '-' :: Nat.toDigits 10 stop,
      c.isDigit = true ∨ c = '-' := by
    intro c hc
    rcases List.mem_append.mp hc with hc | hc
    · exact .inl (isDigit_of_toDigits hc)
    · rcases List.mem_cons.mp hc with rfl | hc
      · exact .inr rfl
      · exact .inl (isDigit_of_toDigits hc)
  constructor
  · have hrange : ∀ c ∈ Nat.toDigits 10 start ++ '-' :: Nat.toDigits 10 stop, c ≠ ':' := by
      rintro c hc rfl
      rcases hdigits _ hc with hc | hc
      · exact absurd hc (by decide)
      · exact absurd hc (by decide)
    have hspace : path.toList.any isSpace = false := by
      rw [List.any_eq_false]
      intro c hc
      rw [(hpath.inert c hc).1]
      decide
    have hok : ¬ (path.toList = [] ∨ path.toList.any isSpace ∨ !repoRelative path.toList) := by
      simp [hpath.nonempty, hspace, hpath.relative]
    obtain ⟨hfront, hback⟩ := @parts_of_colon path.toList _ hrange
    rw [parseSource, toList_sourceText, hfront, hback, List.dropLast_concat,
      if_neg hok, lineRange_written h, Option.map_some, ← toList_sourceText, String.ofList_toList,
      String.ofList_toList]
  · intro c hc
    rw [toList_sourceText, List.mem_append, List.mem_cons] at hc
    rcases hc with hc | rfl | hc
    · exact hpath.inert c hc
    · exact ⟨by decide, by decide, by decide⟩
    · rcases hdigits c hc with hc | rfl
      · exact inert_of_digit hc
      · exact ⟨by decide, by decide, by decide⟩

end AgentsRemember.Citations
