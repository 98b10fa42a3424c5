import AgentsRemember.Citations.Quotes

/-!
# Citations — Generated

The ranges that are generated for an anchor, against the checker's test and
against what a file view answers. Runs of mentions and sections pass the test.
Three kinds of anchors part the two sides: a quote that is found over a comment
mark, a heading whose marks are not followed by white space, and a symbol that is
not spelled in the letters of the identifier pattern.
-/

namespace AgentsRemember.Citations

open Lines (isSpace)

/-! ## Mentions -/

theorem standsAlone_iff {symbol text : List Char} {before : Option Char} :
    standsAlone symbol before text = true ↔ ∃ b, text = symbol ++ b ∧
      before.any isIdentifierChar = false ∧ b.head?.any isIdentifierChar = false := by
  simp only [standsAlone, Bool.and_eq_true, Bool.not_eq_true', List.isPrefixOf_iff_prefix]
  constructor
  · rintro ⟨⟨hbefore, b, rfl⟩, hb⟩
    rw [List.drop_left] at hb
    exact ⟨b, rfl, hbefore, hb⟩
  · rintro ⟨b, rfl, hbefore, hb⟩
    exact ⟨⟨hbefore, List.prefix_append _ _⟩, by rwa [List.drop_left]⟩

theorem searchFrom_iff {symbol text : List Char} {before : Option Char} :
    searchFrom symbol before text = true ↔ ∃ a b, text = a ++ symbol ++ b ∧
      (a.getLast?.or before).any isIdentifierChar = false ∧
      b.head?.any isIdentifierChar = false := by
  induction text generalizing before with
  | nil =>
    rw [searchFrom, standsAlone_iff]
    constructor
    · rintro ⟨b, htext, hbefore, hb⟩
      exact ⟨[], b, htext, hbefore, hb⟩
    · rintro ⟨a, b, htext, ha, hb⟩
      obtain ⟨rfl, -⟩ : a = [] ∧ symbol ++ b = [] := by
        rw [List.append_assoc, eq_comm, List.append_eq_nil_iff] at htext
        exact htext
      exact ⟨b, htext, ha, hb⟩
  | cons c rest ih =>
    rw [searchFrom, Bool.or_eq_true, standsAlone_iff, ih]
    constructor
    · rintro (⟨b, htext, hbefore, hb⟩ | ⟨a, b, rfl, ha, hb⟩)
      · exact ⟨[], b, htext, hbefore, hb⟩
      · refine ⟨c :: a, b, rfl, ?_, hb⟩
        rw [List.getLast?_cons]
        cases hlast : a.getLast? <;> simpa [hlast] using ha
    · rintro ⟨a, b, htext, ha, hb⟩
      cases a with
      | nil => exact .inl ⟨b, htext, ha, hb⟩
      | cons d a =>
        obtain ⟨rfl, rfl⟩ := List.cons.inj htext
        refine .inr ⟨a, b, rfl, ?_, hb⟩
        rw [List.getLast?_cons] at ha
        cases hlast : a.getLast? <;> simpa [hlast] using ha

theorem wholeIdentifier_iff {symbol text : List Char} :
    wholeIdentifier symbol text = true ↔ ∃ a b, text = a ++ symbol ++ b ∧
      a.getLast?.any isIdentifierChar = false ∧ b.head?.any isIdentifierChar = false := by
  rw [wholeIdentifier, searchFrom_iff]
  simp only [Option.or_none]

/-- Lines among others, between line ends. -/
theorem intercalate_of_infix {part lines : List (List Char)} (hne : part ≠ [])
    (h : part <:+: lines) : ∃ a b, ['\n'].intercalate lines = a ++ ['\n'].intercalate part ++ b ∧
      (a = [] ∨ a.getLast? = some '\n') ∧ (b = [] ∨ b.head? = some '\n') := by
  obtain ⟨front, back, rfl⟩ := h
  obtain ⟨a, hfront, ha⟩ : ∃ a, ['\n'].intercalate (front ++ part) =
      a ++ ['\n'].intercalate part ∧ (a = [] ∨ a.getLast? = some '\n') := by
    by_cases hnil : front = []
    · exact ⟨[], by rw [hnil]; rfl, .inl rfl⟩
    · refine ⟨['\n'].intercalate front ++ ['\n'], ?_, .inr List.getLast?_concat⟩
      rw [Words.intercalate_append '\n' hnil hne]
      simp
  by_cases hnil : back = []
  · exact ⟨a, [], by rw [hnil, List.append_nil, hfront, List.append_nil], ha, .inl rfl⟩
  · refine ⟨a, '\n' :: ['\n'].intercalate back, ?_, ha, .inr rfl⟩
    rw [Words.intercalate_append '\n' (by simp [hne]) hnil, hfront]

theorem wholeIdentifier_infix {symbol : List Char} {part lines : List (List Char)}
    (hne : part ≠ []) (hpart : part <:+: lines)
    (h : wholeIdentifier symbol (['\n'].intercalate part) = true) :
    wholeIdentifier symbol (['\n'].intercalate lines) = true := by
  obtain ⟨x, y, hlines, hx, hy⟩ := intercalate_of_infix hne hpart
  obtain ⟨a, b, htext, ha, hb⟩ := wholeIdentifier_iff.mp h
  refine wholeIdentifier_iff.mpr ⟨x ++ a, b ++ y, by rw [hlines, htext]; simp, ?_, ?_⟩
  · rw [List.getLast?_append]
    cases hlast : a.getLast? with
    | none => obtain rfl | hx := hx <;> simp [*, isIdentifierChar]
    | some c => simpa [hlast] using ha
  · rw [List.head?_append]
    cases hhead : b.head? with
    | none => obtain rfl | hy := hy <;> simp [*, isIdentifierChar]
    | some c => simpa [hhead] using hb

theorem wholeIdentifier_lines {symbol line : List Char} {lines : List (List Char)}
    (hmem : line ∈ lines) (h : wholeIdentifier symbol line = true) :
    wholeIdentifier symbol (['\n'].intercalate lines) = true := by
  obtain ⟨front, back, rfl⟩ := List.append_of_mem hmem
  refine wholeIdentifier_infix (List.cons_ne_nil line []) ⟨front, back, by simp⟩ ?_
  rwa [List.intercalate_singleton]

/-! ## Runs of mentions -/

theorem extendRun_ne_nil (found : List Extent) (line : Nat) : extendRun found line ≠ [] := by
  unfold extendRun
  split
  · split <;> simp
  · simp

/-- A run begins and ends on lines of a kind. -/
structure IsRun (hit : Nat → Prop) (extent : Extent) : Prop where
  opens : hit extent.start
  closes : hit extent.stop
  ordered : extent.start ≤ extent.stop
  kind : extent.kind = .occurrence

theorem isRun_extendRun {hit : Nat → Prop} {found : List Extent} {line : Nat}
    (hfound : ∀ e ∈ found, IsRun hit e) (hline : hit line) :
    ∀ e ∈ extendRun found line, IsRun hit e := by
  have hnew : IsRun hit ⟨line, line, .occurrence⟩ := ⟨hline, hline, Nat.le_refl _, rfl⟩
  intro e he
  unfold extendRun at he
  split at he
  · rename_i last hlast
    have hrun := hfound last (List.mem_of_getLast? hlast)
    split at he
    · rename_i hnext
      rcases List.mem_append.mp he with he | he
      · exact hfound e (List.mem_of_mem_dropLast he)
      · rw [List.mem_singleton.mp he]
        have hle := hrun.ordered
        exact ⟨hrun.opens, hline, by dsimp only; omega, rfl⟩
    · rcases List.mem_append.mp he with he | he
      · exact hfound e he
      · exact List.mem_singleton.mp he ▸ hnew
  · rcases List.mem_append.mp he with he | he
    · exact hfound e he
    · exact List.mem_singleton.mp he ▸ hnew

theorem isRun_foldl {hit : Nat → Prop} {hits : List Nat} (hhits : ∀ line ∈ hits, hit line)
    {found : List Extent} (hfound : ∀ e ∈ found, IsRun hit e) :
    ∀ e ∈ hits.foldl extendRun found, IsRun hit e := by
  induction hits generalizing found with
  | nil => exact hfound
  | cons line hits ih =>
    exact ih (fun l hl => hhits l (List.mem_cons_of_mem _ hl))
      (isRun_extendRun hfound (hhits line List.mem_cons_self))

theorem foldl_extendRun_ne_nil {hits : List Nat} {found : List Extent}
    (h : hits ≠ [] ∨ found ≠ []) : hits.foldl extendRun found ≠ [] := by
  induction hits generalizing found with
  | nil => simpa using h
  | cons line hits ih => exact ih (.inr (extendRun_ne_nil found line))

theorem occurrenceRuns_ne_nil {symbol : List Char} {lines : List (List Char)} :
    occurrenceRuns symbol lines ≠ [] ↔ ∃ line ∈ lines, wholeIdentifier symbol line = true := by
  constructor
  · intro h
    by_contra hnone
    apply h
    have hfilter : lines.zipIdx.filter (fun e => wholeIdentifier symbol e.1) = [] := by
      rw [List.filter_eq_nil_iff]
      intro e he hholds
      exact hnone ⟨e.1, List.fst_mem_of_mem_zipIdx he, hholds⟩
    rw [occurrenceRuns, hfilter]
    rfl
  · rintro ⟨line, hmem, hholds⟩
    obtain ⟨index, hindex⟩ := List.mem_iff_getElem?.mp hmem
    have hentry : (line, index) ∈ lines.zipIdx := List.mem_zipIdx_iff_getElem?.mpr hindex
    apply foldl_extendRun_ne_nil
    left
    intro hnil
    rw [List.map_eq_nil_iff, List.filter_eq_nil_iff] at hnil
    exact hnil (line, index) hentry hholds

/-- A run of mentions passes the test. -/
theorem holds_run {name : String} {lines : List (List Char)} {extent : Extent}
    (h : extent ∈ occurrenceRuns name.toList lines) :
    Holds ⟨.symbol, name⟩ lines extent ∧ extent.kind = .occurrence := by
  have hrun : IsRun (fun n => ∃ line, lines[n - 1]? = some line ∧ 1 ≤ n ∧
      wholeIdentifier name.toList line = true) extent := by
    refine isRun_foldl ?_ (by simp) extent h
    intro n hn
    obtain ⟨e, he, rfl⟩ := List.mem_map.mp hn
    obtain ⟨hentry, hholds⟩ := List.mem_filter.mp he
    exact ⟨e.1, List.mem_zipIdx_iff_getElem?.mp hentry, by omega, hholds⟩
  obtain ⟨line, hline, hlow, hholds⟩ := hrun.opens
  obtain ⟨last, hlast, -, -⟩ := hrun.closes
  have hordered := hrun.ordered
  have hstop : extent.stop - 1 < lines.length := (List.getElem?_eq_some_iff.mp hlast).1
  refine ⟨⟨hlow, hordered, by omega, ?_⟩, hrun.kind⟩
  have hmem : line ∈ (lines.take extent.stop).drop (extent.start - 1) := by
    refine List.mem_iff_getElem?.mpr ⟨0, ?_⟩
    rw [List.getElem?_drop, List.getElem?_take_of_lt (by omega)]
    exact hline
  exact wholeIdentifier_lines hmem hholds

/-! ## Sections -/

theorem mem_headingLevels {lines : List (List Char)} {index depth : Nat} :
    (index, depth) ∈ headingLevels (unfencedLines lines) ↔ ∃ line,
      (line, index) ∈ unfencedLines lines ∧ headingDepth (Lines.strip line) = some depth := by
  simp only [headingLevels, List.mem_filterMap, Prod.exists, Option.map_eq_some_iff,
    Prod.mk.injEq]
  constructor
  · rintro ⟨line, i, hmem, d, hdepth, rfl, rfl⟩
    exact ⟨line, hmem, hdepth⟩
  · rintro ⟨line, hmem, hdepth⟩
    exact ⟨line, index, hmem, depth, hdepth, rfl, rfl⟩

/-- A section ends behind its heading, and in the file. -/
theorem closing_bounds {lines : List (List Char)} {index : Nat} (p : Nat × Nat → Bool)
    (h : index < lines.length) :
    index < (((headingLevels (unfencedLines lines)).find? fun later =>
        index < later.1 && p later).map Prod.fst).getD lines.length ∧
      (((headingLevels (unfencedLines lines)).find? fun later =>
        index < later.1 && p later).map Prod.fst).getD lines.length ≤ lines.length := by
  cases hfind : (headingLevels (unfencedLines lines)).find? fun later =>
      index < later.1 && p later with
  | none => exact ⟨h, Nat.le_refl _⟩
  | some later =>
    have hlater := List.find?_some hfind
    obtain ⟨line, hline, -⟩ := mem_headingLevels.mp (List.mem_of_find?_eq_some hfind)
    have hlt : later.1 < lines.length :=
      (List.getElem?_eq_some_iff.mp (getElem?_of_mem_unfencedLines hline)).1
    simp only [Bool.and_eq_true, decide_eq_true_eq] at hlater
    exact ⟨hlater.1, Nat.le_of_lt hlt⟩

/-- Lines that begin with a heading pass its test. -/
theorem holds_headed {heading : String} {lines : List (List Char)} (hplain : Plain lines)
    {line : List Char} {index closing : Nat} (hget : lines[index]? = some line) (hne : line ≠ [])
    (hstrip : Lines.strip line = heading.toList) (hafter : index < closing)
    (hbound : closing ≤ lines.length) :
    Holds ⟨.heading, heading⟩ lines ⟨index + 1, closing, .headed⟩ := by
  refine ⟨Nat.le_add_left 1 index, hafter, hbound, ?_⟩
  have hmem : line ∈ (lines.take closing).drop (index + 1 - 1) := by
    refine List.mem_iff_getElem?.mpr ⟨0, ?_⟩
    rw [List.getElem?_drop, Nat.add_sub_cancel, Nat.add_zero, List.getElem?_take_of_lt hafter]
    exact hget
  have hsub : Plain ((lines.take closing).drop (index + 1 - 1)) :=
    hplain.sublist ((List.drop_sublist _ _).trans (List.take_sublist _ _))
  show ((Lines.splitlines (bodyOf lines (index + 1) closing)).any fun line =>
    Lines.strip line == heading.toList) = true
  rw [bodyOf, Lines.splitlines_intercalate hsub, List.any_eq_true]
  refine ⟨line, ?_, by simpa using hstrip⟩
  split
  · rename_i hlast
    obtain ⟨init, hinit⟩ := List.getLast?_eq_some_iff.mp hlast
    rw [hinit, List.dropLast_concat]
    rw [hinit] at hmem
    rcases List.mem_append.mp hmem with hmem | hmem
    · exact hmem
    · exact absurd (List.mem_singleton.mp hmem) hne
  · exact hmem

/-- The section of a heading passes the test. -/
theorem holds_section {heading : String} {lines : List (List Char)} (hplain : Plain lines)
    {extent : Extent} (h : extent ∈ headingExtents heading.toList lines) :
    Holds ⟨.heading, heading⟩ lines extent ∧ extent.kind = .headed := by
  obtain ⟨⟨index, depth⟩, hentry, rfl⟩ := List.mem_map.mp h
  obtain ⟨hlevel, hstrip⟩ := List.mem_filter.mp hentry
  obtain ⟨line, hline, hdepth⟩ := mem_headingLevels.mp hlevel
  have hget := getElem?_of_mem_unfencedLines hline
  have hbounds := closing_bounds (fun later =>
    later.2 ≤ (heading.toList.takeWhile (· == '#')).length) (List.getElem?_eq_some_iff.mp hget).1
  have hne : line ≠ [] := by
    intro hnil
    rw [hnil] at hdepth
    cases hdepth
  exact ⟨holds_headed hplain hget hne
    (by simpa [List.getD_eq_getElem?_getD, hget] using hstrip) hbounds.1 hbounds.2, rfl⟩

/-- A heading in the form of headings has a section wherever it stands. -/
theorem headingExtents_ne_nil {heading : List Char} {lines : List (List Char)} {line : List Char}
    {index : Nat} (hline : (line, index) ∈ unfencedLines lines)
    (hstrip : Lines.strip line = heading) (hform : (headingDepth heading).isSome = true) :
    headingExtents heading lines ≠ [] := by
  obtain ⟨depth, hdepth⟩ := Option.isSome_iff_exists.mp hform
  have hlevel : (index, depth) ∈ headingLevels (unfencedLines lines) :=
    mem_headingLevels.mpr ⟨line, hline, by rw [hstrip, hdepth]⟩
  intro hnil
  rw [headingExtents, headingExtentsIn, List.map_eq_nil_iff, List.filter_eq_nil_iff] at hnil
  refine hnil _ hlevel ?_
  simp [List.getD_eq_getElem?_getD, getElem?_of_mem_unfencedLines hline, hstrip]

/-- A heading in another form has none. -/
theorem headingExtents_eq_nil {heading : List Char} {lines : List (List Char)}
    (hform : headingDepth heading = none) : headingExtents heading lines = [] := by
  rw [headingExtents, headingExtentsIn, List.map_eq_nil_iff, List.filter_eq_nil_iff]
  rintro ⟨index, depth⟩ hlevel hstrip
  obtain ⟨line, hline, hdepth⟩ := mem_headingLevels.mp hlevel
  have hstrip : Lines.strip line = heading := by
    simpa [List.getD_eq_getElem?_getD, getElem?_of_mem_unfencedLines hline] using hstrip
  rw [hstrip, hform] at hdepth
  cases hdepth

/-- Outside fences, a single line passes the test of a heading where it strips to it. -/
theorem occursIn_heading_line {heading : String} {line : List Char}
    (hplain : ∀ c ∈ line, Lines.isBreak c = false)
    (h : Anchor.occursIn ⟨.heading, heading⟩ line = true) :
    Lines.strip line = heading.toList := by
  by_cases hnil : line = []
  · rw [hnil] at h
    cases h
  · have hlines : ((Lines.splitlines line).any fun line =>
        Lines.strip line == heading.toList) = true := h
    rw [Lines.splitlines_last hnil hplain] at hlines
    simpa using hlines

/-! ## Identifiers -/

theorem isIdentifierStart_char {c : Char} (h : isIdentifierStart c = true) :
    isIdentifierChar c = true := by
  simp only [isIdentifierStart, isIdentifierChar, Char.isAlphanum, Bool.or_eq_true] at h ⊢
  tauto

theorem isIdentifier_of_mem {text name : List Char} (h : name ∈ identifiers text) :
    isIdentifier name = true := by
  fun_induction identifiers text with
  | case1 => cases h
  | case2 c rest hstart ih =>
    rcases List.mem_cons.mp h with rfl | h
    · rw [isIdentifier, hstart, Bool.true_and, List.all_eq_true]
      exact fun d hd => List.mem_takeWhile_imp hd
    · exact ih h
  | case3 c rest hstart ih => exact ih h

/-- An identifier that stands alone in a text is one of its tokens. -/
theorem mem_identifiers {text name a b : List Char} (hname : isIdentifier name = true)
    (htext : text = a ++ name ++ b) (ha : a.getLast?.any isIdentifierChar = false)
    (hb : b.head?.any isIdentifierChar = false) : name ∈ identifiers text := by
  obtain ⟨first, later, rfl⟩ : ∃ first later, name = first :: later := by
    cases name with
    | nil => cases hname
    | cons first later => exact ⟨first, later, rfl⟩
  simp only [isIdentifier, Bool.and_eq_true, List.all_eq_true] at hname
  fun_induction identifiers text generalizing a with
  | case1 => simp at htext
  | case2 c rest hstart ih =>
    cases a with
    | nil =>
      -- the name is the token that begins here
      obtain ⟨rfl, rfl⟩ := List.cons.inj htext
      have hend : b.takeWhile isIdentifierChar = [] := by
        cases b with
        | nil => rfl
        | cons d b => rw [List.takeWhile_cons_of_neg (by simpa using hb)]
      have htoken : (later ++ b).takeWhile isIdentifierChar = later := by
        rw [List.takeWhile_append_of_pos hname.2, hend, List.append_nil]
      refine List.mem_cons.mpr (.inl ?_)
      exact congrArg (c :: ·) htoken.symm
    | cons d a =>
      -- the token that begins here ends before the name
      obtain ⟨rfl, rfl⟩ := List.cons.inj htext
      rw [List.getLast?_cons] at ha
      obtain rfl | ⟨init, last, rfl⟩ := a.eq_nil_or_concat'
      · simp [isIdentifierStart_char hstart] at ha
      · have hlast : isIdentifierChar last = false := by simpa using ha
        have hdrop : ((init ++ [last]) ++ (first :: later) ++ b).dropWhile isIdentifierChar =
            (init.dropWhile isIdentifierChar ++ [last]) ++ (first :: later) ++ b := by
          rw [List.append_assoc, List.append_assoc, List.dropWhile_append]
          split
          · rename_i hinit
            rw [List.isEmpty_iff.mp hinit, List.singleton_append,
              List.dropWhile_cons_of_neg (by simp [hlast])]
            simp
          · simp
        exact List.mem_cons_of_mem _ (ih (by simp [hlast]) hdrop)
  | case3 c rest hstart ih =>
    cases a with
    | nil =>
      obtain ⟨rfl, rfl⟩ := List.cons.inj htext
      exact absurd hname.1 hstart
    | cons d a =>
      obtain ⟨rfl, rfl⟩ := List.cons.inj htext
      refine ih ?_ rfl
      rw [List.getLast?_cons] at ha
      cases hlast : a.getLast? with
      | none => rfl
      | some e => simpa [hlast] using ha

/-! ## File views -/

-- by name, so that the test for membership below unfolds to one term everywhere
attribute [local instance] Lines.lawfulBEq

/-- What a view answers: a symbol that is none of the tokens of the file has no
range, whatever else would be found. -/
def answered (grammar : Grammar) (anchor : Anchor) (path : String) (lines : List (List Char)) :
    Option (List Extent) :=
  if anchor.kind = .symbol ∧ anchor.text.toList ∉ identifiers (['\n'].intercalate lines) then
    some []
  else anchorExtents grammar anchor path lines

namespace FileView

/-- A view of a file that keeps nothing but what is derived from it. -/
structure Fresh (grammar : Grammar) (path : String) (lines : List (List Char))
    (view : FileView) : Prop where
  samePath : view.path = path
  sameLines : view.lines = lines
  names : ∀ names, view.names = some names → names = identifiers (['\n'].intercalate lines)
  defined : ∀ defined, view.defined = some defined → defined = definitions grammar path lines
  words : ∀ words, view.words = some words → words = collapsed lines
  comments : ∀ comments, view.comments = some comments → comments = lineCommentBlocks lines
  levels : ∀ levels, view.levels = some levels → levels = headingLevels (unfencedLines lines)
  calls : ∀ calls, view.calls = some calls → calls = grammar.callArgumentLiterals path lines

section fresh
variable {grammar : Grammar} {path : String} {lines : List (List Char)} {view : FileView}

/-- Deriving once gives what deriving gives, and the view stays fresh. -/
theorem once_fresh {α : Type} {slot : FileView → Option α} {keep : FileView → α → FileView}
    {derive : FileView → α} {expected : α} (h : Fresh grammar path lines view)
    (hslot : ∀ value, slot view = some value → value = expected)
    (hderive : derive view = expected) (hkeep : Fresh grammar path lines (keep view expected)) :
    (once slot keep derive view).1 = expected ∧
      Fresh grammar path lines (once slot keep derive view).2 := by
  unfold once
  split
  · rename_i value hvalue
    exact ⟨hslot value hvalue, h⟩
  · exact ⟨hderive, hderive ▸ hkeep⟩

theorem readNames_fresh (h : Fresh grammar path lines view) :
    view.readNames.1 = identifiers (['\n'].intercalate lines) ∧
      Fresh grammar path lines view.readNames.2 :=
  once_fresh h h.names (by rw [h.sameLines])
    { h with names := fun _ hnames => (Option.some.inj hnames).symm }

theorem readDefined_fresh (h : Fresh grammar path lines view) :
    (view.readDefined grammar).1 = definitions grammar path lines ∧
      Fresh grammar path lines (view.readDefined grammar).2 :=
  once_fresh h h.defined (by rw [h.samePath, h.sameLines])
    { h with defined := fun _ hdefined => (Option.some.inj hdefined).symm }

theorem readWords_fresh (h : Fresh grammar path lines view) :
    view.readWords.1 = collapsed lines ∧ Fresh grammar path lines view.readWords.2 :=
  once_fresh h h.words (by rw [h.sameLines])
    { h with words := fun _ hwords => (Option.some.inj hwords).symm }

theorem readComments_fresh (h : Fresh grammar path lines view) :
    view.readComments.1 = lineCommentBlocks lines ∧
      Fresh grammar path lines view.readComments.2 :=
  once_fresh h h.comments (by rw [h.sameLines])
    { h with comments := fun _ hcomments => (Option.some.inj hcomments).symm }

theorem headings_fresh (h : Fresh grammar path lines view) :
    view.headings.1 = headingLevels (unfencedLines lines) ∧
      Fresh grammar path lines view.headings.2 :=
  once_fresh h h.levels (by rw [h.sameLines])
    { h with levels := fun _ hlevels => (Option.some.inj hlevels).symm }

theorem readCalls_fresh (h : Fresh grammar path lines view) :
    (view.readCalls grammar).1 = grammar.callArgumentLiterals path lines ∧
      Fresh grammar path lines (view.readCalls grammar).2 :=
  once_fresh h h.calls (by rw [h.samePath, h.sameLines])
    { h with calls := fun _ hcalls => (Option.some.inj hcalls).symm }

/-- One question. -/
theorem extents_fresh (h : Fresh grammar path lines view) (anchor : Anchor) :
    (view.extents grammar anchor).1 = answered grammar anchor path lines ∧
      Fresh grammar path lines (view.extents grammar anchor).2 := by
  unfold answered FileView.extents anchorExtents
  cases hkind : anchor.kind with
  | symbol =>
    obtain ⟨hnames, hfresh⟩ := readNames_fresh h
    obtain ⟨hdefined, hfresh'⟩ := readDefined_fresh hfresh
    simp only [FileView.symbol, hnames, hdefined, hfresh'.sameLines, true_and]
    by_cases hmem : anchor.text.toList ∈ identifiers (['\n'].intercalate lines)
    · rw [if_neg (not_not.mpr hmem), if_neg (not_not.mpr hmem), symbolExtents]
      split
      · exact ⟨rfl, hfresh'⟩
      · exact ⟨rfl, hfresh'⟩
    · rw [if_pos hmem, if_pos hmem]
      exact ⟨rfl, hfresh⟩
  | heading =>
    obtain ⟨hlevels, hfresh⟩ := headings_fresh h
    simp only [hlevels, hfresh.sameLines, reduceCtorEq, false_and, if_false]
    exact ⟨rfl, hfresh⟩
  | quote =>
    obtain ⟨hwords, hfresh⟩ := readWords_fresh h
    obtain ⟨hcomments, hfresh'⟩ := readComments_fresh hfresh
    obtain ⟨hcalls, hfresh''⟩ := readCalls_fresh hfresh'
    simp only [hwords, hcomments, hcalls, reduceCtorEq, false_and, if_false, quoteExtentsForPath]
    cases allQuoteMatches anchor.text.toList (collapsed lines) (lineCommentBlocks lines) with
    | none => exact ⟨rfl, hfresh'⟩
    | some found => exact ⟨rfl, hfresh''⟩

/-- Any number of questions. -/
theorem after_fresh (grammar : Grammar) (path : String) (lines : List (List Char))
    (asked : List Anchor) : Fresh grammar path lines (after grammar path lines asked) := by
  have hrun : ∀ view, Fresh grammar path lines view → Fresh grammar path lines
      (asked.foldl (fun view anchor => (view.extents grammar anchor).2) view) := by
    induction asked with
    | nil => exact fun view h => h
    | cons anchor asked ih => exact fun view h => ih _ (extents_fresh h anchor).2
  exact hrun _ ⟨rfl, rfl, by simp, by simp, by simp, by simp, by simp, by simp⟩

end fresh

end FileView

end AgentsRemember.Citations
