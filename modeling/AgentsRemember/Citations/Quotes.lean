import AgentsRemember.Citations.Streams

/-!
# Citations — Quotes

Where a quote is found, in the raw text of a file and in its comment blocks, and
whether the lines it lies on hold it when their comment marks are left out. The
lines of a comment block always do; a quote found in the raw text over a mark may
not.
-/

namespace AgentsRemember.Citations

open Lines (isSpace)

/-! ## Comment marks -/

/-- The words of a line without its comment mark. -/
def unmarked (line : List Char) : List (List Char) := Words.words (withoutMark line)

theorem words_slashes (rest : List Char) (more : List (List Char)) :
    ∃ tail, Words.unwords (Words.words ('/' :: '/' :: rest) ++ more) = '/' :: '/' :: tail ∧
      (tail = Words.unwords (Words.words rest ++ more) ∨
        tail = ' ' :: Words.unwords (Words.words rest ++ more)) := by
  have hslash : isSpace '/' = false := by decide
  obtain ⟨w, ws, hw, hslashes⟩ := Words.words_inside hslash hslash rest
  by_cases hend : ∀ d, rest.head? = some d → isSpace d = true
  · -- the slashes are a word of their own
    rw [Words.words_last hslash hend, List.cons.injEq] at hw
    obtain ⟨rfl, rfl⟩ := hw
    rw [hslashes, List.cons_append]
    by_cases hnil : Words.words rest ++ more = []
    · exact ⟨[], by rw [hnil, Words.unwords_singleton], .inl (by rw [hnil]; rfl)⟩
    · exact ⟨_, by rw [Words.unwords_cons hnil]; rfl, .inr rfl⟩
  · obtain ⟨d, hd⟩ := not_forall.mp hend
    obtain ⟨hhead, hd⟩ := Classical.not_imp.mp hd
    obtain ⟨s, rfl⟩ : ∃ s, rest = d :: s := List.head?_eq_some_iff.mp hhead
    obtain ⟨v, vs, hv, hslash'⟩ := Words.words_inside hslash (by simpa using hd) s
    rw [hslash', List.cons.injEq] at hw
    obtain ⟨rfl, rfl⟩ := hw
    refine ⟨_, ?_, .inl rfl⟩
    rw [hslashes, hv, List.cons_append, List.cons_append]
    cases vs ++ more with
    | nil => rw [Words.unwords_singleton, Words.unwords_singleton]
    | cons u us =>
      rw [Words.unwords_cons (List.cons_ne_nil u us), Words.unwords_cons (List.cons_ne_nil u us)]
      rfl

theorem commentMark_eq_some {line : List Char} {skip : Nat} (h : commentMark line = some skip) :
    ∃ rest, Words.words line = Words.words ('/' :: '/' :: rest) ∧
      unmarked line = Words.words rest := by
  have hindent : ∀ c ∈ line.takeWhile isSpace, isSpace c = true :=
    fun _ hc => List.mem_takeWhile_imp hc
  rw [unmarked, withoutMark, h, Option.getD_some]
  unfold commentMark at h
  split at h
  · rename_i rest hrest
    have hline : line = line.takeWhile isSpace ++ '/' :: '/' :: rest := by
      rw [← hrest, List.takeWhile_append_dropWhile]
    rw [Option.some.injEq] at h
    generalize line.takeWhile isSpace = indent at hindent hline h
    have hdrop : ∀ k, line.drop (indent.length + 2 + k) = rest.drop k := by
      intro k
      rw [hline, Nat.add_assoc, ← List.drop_drop, List.drop_left, Nat.add_comm 2 k]
      rfl
    refine ⟨rest, ?_, ?_⟩
    · rw [hline, Words.words_spaces hindent]
    · rw [← h, hdrop]
      -- one white space behind the slashes is dropped, and it parts no words
      cases rest with
      | nil => simp
      | cons c rest =>
        by_cases hc : isSpace c = true
        · simp [hc, Words.words_space hc]
        · simp [hc]
  · cases h

theorem withoutMark_of_none {line : List Char} (h : commentMark line = none) :
    withoutMark line = line := by
  rw [withoutMark, h]
  rfl

theorem unmarked_of_none {line : List Char} (h : commentMark line = none) :
    unmarked line = Words.words line := by
  rw [unmarked, withoutMark_of_none h]

/-! ## The checker's test of a quote -/

/-- Lines as a file has them. -/
def Plain (lines : List (List Char)) : Prop := ∀ l ∈ lines, ∀ c ∈ l, Lines.isBreak c = false

theorem Plain.sublist {lines part : List (List Char)} (h : Plain lines)
    (hsub : part.Sublist lines) : Plain part :=
  fun l hl => h l (hsub.subset hl)

theorem quoteNormalised_lines {lines : List (List Char)} (h : Plain lines) :
    quoteNormalised (['\n'].intercalate lines) = Words.unwords (lines.flatMap unmarked) := by
  have hlines : (Lines.splitlines (['\n'].intercalate lines)).flatMap unmarked =
      lines.flatMap unmarked := by
    rw [Lines.splitlines_intercalate h]
    split
    · rename_i hlast
      obtain ⟨init, rfl⟩ := List.getLast?_eq_some_iff.mp hlast
      have hempty : unmarked [] = [] := rfl
      rw [List.dropLast_concat, List.flatMap_append, List.flatMap_singleton, hempty,
        List.append_nil]
    · rfl
  rw [quoteNormalised, normalised, Words.collapse, Words.words_intercalate (by decide),
    List.flatMap_map, ← hlines]
  rfl

theorem occursIn_quote {quote : String} {lines : List (List Char)} (h : Plain lines) :
    Anchor.occursIn ⟨.quote, quote⟩ (['\n'].intercalate lines) = true ↔
      normalised quote.toList <:+: Words.unwords (lines.flatMap unmarked) := by
  rw [← quoteNormalised_lines h]
  exact decide_eq_true_iff

theorem texts_lineWords (starts : List Nat) (skip : Nat) (entry : List Char × Nat) :
    texts (lineWords starts skip entry) = Words.words (entry.1.drop skip) := by
  rw [texts, lineWords, List.map_map]
  exact Words.map_tokensFrom skip _

theorem line_lineWords {starts : List Nat} {skip : Nat} {entry : List Char × Nat}
    {word : SourceWord} (h : word ∈ lineWords starts skip entry) : word.line = entry.2 + 1 := by
  obtain ⟨token, -, rfl⟩ := List.mem_map.mp h
  rfl

theorem text_collapsed (lines : List (List Char)) :
    (collapsed lines).text = Words.unwords (lines.flatMap Words.words) :=
  congrArg Words.unwords (texts_flatMap (fun e => texts_lineWords _ 0 e) lines 0)

theorem bodyOf_range (lines : List (List Char)) (i j : Nat) :
    bodyOf lines (i + 1) (j + 1) = ['\n'].intercalate ((lines.drop i).take (j + 1 - i)) := by
  rw [bodyOf, Nat.add_sub_cancel, List.drop_take]

/-! ## Quotes in the raw text -/

/-- An occurrence of a quote in the raw text takes in a slash of a comment mark
that opens a line. -/
def takesMark (lines : List (List Char)) (offset stop : Nat) : Bool :=
  lines.zipIdx.any fun e => (commentMark e.1).isSome &&
    decide (offset < widthBefore Words.words lines e.2 + 2) &&
    decide (widthBefore Words.words lines e.2 < stop)

theorem takesMark_iff {lines : List (List Char)} {offset stop : Nat} :
    takesMark lines offset stop = true ↔ ∃ line index, lines[index]? = some line ∧
      (commentMark line).isSome = true ∧ offset < widthBefore Words.words lines index + 2 ∧
      widthBefore Words.words lines index < stop := by
  simp only [takesMark, List.any_eq_true, Bool.and_eq_true, decide_eq_true_eq, Prod.exists,
    List.mem_zipIdx_iff_getElem?, and_assoc]

/-- The lines that an occurrence of a quote in the raw text lies on. -/
structure LiesOn (lines : List (List Char)) (offset stop i j : Nat) : Prop where
  begins : widthBefore Words.words lines i ≤ offset
  beforeNext : offset < widthBefore Words.words lines (i + 1)
  reaches : widthBefore Words.words lines j < stop
  ends : stop < widthBefore Words.words lines (j + 1)

theorem LiesOn.unique {lines : List (List Char)} {offset stop i j i' j' : Nat}
    (h : LiesOn lines offset stop i j) (h' : LiesOn lines offset stop i' j') :
    i = i' ∧ j = j' := by
  have hmono := fun a b (hab : a ≤ b) => widthBefore_mono Words.words lines hab
  obtain ⟨h1, h2, h3, h4⟩ := h
  obtain ⟨h1', h2', h3', h4'⟩ := h'
  constructor
  · rcases Nat.lt_trichotomy i i' with hlt | heq | hgt
    · have := hmono (i + 1) i' hlt
      omega
    · exact heq
    · have := hmono (i' + 1) i hgt
      omega
  · rcases Nat.lt_trichotomy j j' with hlt | heq | hgt
    · have := hmono (j + 1) j' hlt
      omega
    · exact heq
    · have := hmono (j' + 1) j hgt
      omega

/-- A text that begins inside a word and stands behind a blank at most. -/
theorem infix_of_blank {target rest tail : List Char} (htight : Words.Tight target)
    (h : target <:+: tail) (htail : tail = rest ∨ tail = ' ' :: rest) : target <:+: rest := by
  obtain rfl | rfl := htail
  · exact h
  · obtain ⟨⟨c, hc, hspace⟩, -⟩ := htight
    rcases List.infix_cons_iff.mp h with hbegins | hheld
    · obtain ⟨more, hmore⟩ := hbegins
      obtain ⟨s, rfl⟩ := List.head?_eq_some_iff.mp hc
      exact absurd (List.cons.inj hmore).1 (Words.ne_blank hspace)
    · exact hheld

/-- A range of lines, of which only the first may be a comment and the quote
begins behind its mark, holds the quote without the marks. -/
theorem infix_unmarked {first : List Char} {later : List (List Char)} {target : List Char}
    (htight : Words.Tight target) {skip : Nat}
    (h : target <+: (Words.unwords ((first :: later).flatMap Words.words)).drop skip)
    (hlater : ∀ l ∈ later, commentMark l = none)
    (hskip : (commentMark first).isSome = true → 2 ≤ skip) :
    target <:+: Words.unwords ((first :: later).flatMap unmarked) := by
  have hsame : later.flatMap Words.words = later.flatMap unmarked := by
    rw [List.flatMap_def, List.flatMap_def]
    congr 1
    exact List.map_congr_left fun l hl => (unmarked_of_none (hlater l hl)).symm
  rw [List.flatMap_cons, hsame] at h
  rw [List.flatMap_cons]
  cases hmark : commentMark first with
  | none =>
    rw [unmarked_of_none hmark]
    exact h.isInfix.trans (List.drop_suffix _ _).isInfix
  | some mark =>
    obtain ⟨rest, hraw, hrest⟩ := commentMark_eq_some hmark
    obtain ⟨tail, htail, hcase⟩ := words_slashes rest (later.flatMap unmarked)
    obtain ⟨k, rfl⟩ : ∃ k, skip = k + 2 := ⟨skip - 2, by have := hskip (by rw [hmark]; rfl); omega⟩
    rw [hraw, htail, List.drop_succ_cons, List.drop_succ_cons] at h
    rw [hrest]
    exact infix_of_blank htight (h.isInfix.trans (List.drop_suffix _ _).isInfix) hcase

section quotes
variable {lines : List (List Char)} {target : List Char} {offset : Nat}

/-- A quote that is found in the raw text lies on lines of the file, and they
hold it without their comment marks when it takes none of them in. -/
theorem raw_match (htight : Words.Tight target)
    (h : offset ∈ Words.occurrences target (collapsed lines).text) :
    ∃ found i j,
      quoteMatchAt (collapsed lines).marks offset (offset + target.length) = some found ∧
        found.start = i + 1 ∧ found.stop = j + 1 ∧ i ≤ j ∧ j < lines.length ∧
        LiesOn lines offset (offset + target.length) i j ∧
        (takesMark lines offset (offset + target.length) = false →
          target <:+: Words.unwords (((lines.drop i).take (j + 1 - i)).flatMap unmarked)) := by
  obtain ⟨found, i, j, hfound, hstart, hstop, hij, hj, hlow, hnext, hhigh, hends, hbegins⟩ :=
    exists_range (g := Words.words) (fun _ _ hword => line_lineWords hword)
      (fun e => texts_lineWords (sourceLineStarts 0 lines) 0 e) htight h
  refine ⟨found, i, j, hfound, by omega, by omega, hij, hj, ⟨hlow, hnext, hhigh, hends⟩,
    fun hfree => ?_⟩
  have hspared : ∀ index line, lines[index]? = some line → (commentMark line).isSome = true →
      offset < widthBefore Words.words lines index + 2 →
      widthBefore Words.words lines index < offset + target.length → False := by
    intro index line hline hmark h1 h2
    rw [takesMark_iff.mpr ⟨line, index, hline, hmark, h1, h2⟩] at hfree
    cases hfree
  have hrange : (lines.drop i).take (j + 1 - i) =
      lines[i] :: (lines.drop (i + 1)).take (j - i) := by
    rw [List.drop_eq_getElem_cons (by omega), show j + 1 - i = (j - i) + 1 by omega,
      List.take_succ_cons]
  rw [hrange] at hbegins ⊢
  apply infix_unmarked htight hbegins
  · intro l hl
    obtain ⟨k, hk⟩ := List.mem_iff_getElem?.mp hl
    have hkj : k < j - i := by
      by_contra hge
      rw [List.getElem?_take, if_neg (by omega)] at hk
      cases hk
    rw [List.getElem?_take_of_lt hkj, List.getElem?_drop] at hk
    have hlater := widthBefore_mono Words.words lines (show i + 1 ≤ i + 1 + k by omega)
    have hbefore := widthBefore_mono Words.words lines (show i + 1 + k ≤ j by omega)
    by_contra hmark
    exact hspared _ l hk (Option.isSome_iff_ne_none.mpr hmark) (by omega) (by omega)
  · intro hmark
    by_contra hlt
    have hfirst : lines[i]? = some lines[i] := List.getElem?_eq_getElem (by omega)
    have hbefore := widthBefore_mono Words.words lines hij
    exact hspared i _ hfirst hmark (by omega) (by omega)

end quotes

/-! ## Quotes in comment blocks -/

/-- The words of a comment line behind its mark. -/
def commentWords (starts : List Nat) (entry : List Char × Nat) : List SourceWord :=
  lineWords starts ((commentMark entry.1).getD 0) entry

theorem infix_flatMap {α β : Type} {f : α → List β} {xs : List α} {x : α} (h : x ∈ xs) :
    f x <:+: xs.flatMap f := by
  obtain ⟨front, back, rfl⟩ := List.append_of_mem h
  rw [List.flatMap_append, List.flatMap_cons]
  exact ⟨front.flatMap f, back.flatMap f, by simp⟩

theorem mem_flushBlock {words : List SourceWord} {block : CollapsedText} :
    block ∈ flushBlock words ↔ words ≠ [] ∧ block = stream words := by
  unfold flushBlock
  by_cases h : words = []
  · simp [h]
  · simp [h]

/-- A comment line joins the lines of the open block. -/
theorem taken_concat {starts : List Nat} {taken : List (List Char)} {line : List Char}
    {k mark : Nat} (hmark : commentMark line = some mark) :
    (taken.zipIdx k).flatMap (commentWords starts) ++
        lineWords starts mark (line, k + taken.length) =
      ((taken ++ [line]).zipIdx k).flatMap (commentWords starts) := by
  rw [List.zipIdx_append, List.flatMap_append, List.zipIdx_singleton, List.flatMap_singleton,
    commentWords, hmark]
  rfl

/-- A block has the words of lines that follow each other. The lines already
taken into the open block are the first of them. -/
theorem mem_blocksFrom {starts : List Nat} (taken : List (List Char)) {lines : List (List Char)}
    {k : Nat}
    {block : CollapsedText}
    (h : block ∈ blocksFrom starts ((taken.zipIdx k).flatMap (commentWords starts))
      (lines.zipIdx (k + taken.length))) :
    ∃ front part back, taken ++ lines = front ++ part ++ back ∧
      block = stream ((part.zipIdx (k + front.length)).flatMap (commentWords starts)) := by
  induction lines generalizing taken k with
  | nil => exact ⟨[], taken, [], by simp, (mem_flushBlock.mp h).2⟩
  | cons line lines ih =>
    rw [List.zipIdx_cons, blocksFrom] at h
    split at h
    · rcases List.mem_append.mp h with h | h
      · exact ⟨[], taken, line :: lines, rfl, (mem_flushBlock.mp h).2⟩
      · obtain ⟨front, part, back, hlines, hblock⟩ :=
          ih [] (k := k + taken.length + 1) h
        rw [List.nil_append] at hlines
        refine ⟨taken ++ line :: front, part, back, by rw [hlines]; simp, ?_⟩
        rw [hblock, List.length_append, List.length_cons, Nat.add_assoc k, Nat.add_assoc k,
          Nat.add_assoc taken.length, Nat.add_comm 1]
    · rename_i mark hmark
      rw [taken_concat hmark, Nat.add_assoc] at h
      obtain ⟨front, part, back, hlines, hblock⟩ :=
        ih (taken ++ [line]) (by rw [List.length_append]; exact h)
      exact ⟨front, part, back, by rw [← hlines]; simp, hblock⟩

/-- The words of a comment line stand in a block. -/
theorem exists_block {starts : List Nat} (taken lines : List (List Char)) {k : Nat}
    {entry : List Char × Nat} (hentry : entry ∈ taken.zipIdx k ++ lines.zipIdx (k + taken.length))
    (hmark : (commentMark entry.1).isSome = true) (hwords : commentWords starts entry ≠ []) :
    ∃ words, stream words ∈ blocksFrom starts ((taken.zipIdx k).flatMap (commentWords starts))
        (lines.zipIdx (k + taken.length)) ∧ commentWords starts entry <:+: words := by
  have hflush : entry ∈ taken.zipIdx k →
      stream ((taken.zipIdx k).flatMap (commentWords starts)) ∈
        flushBlock ((taken.zipIdx k).flatMap (commentWords starts)) := by
    intro hmem
    refine mem_flushBlock.mpr ⟨fun hnil => ?_, rfl⟩
    exact hwords (List.flatMap_eq_nil_iff.mp hnil entry hmem)
  induction lines generalizing taken k with
  | nil =>
    have hmem : entry ∈ taken.zipIdx k := by simpa using hentry
    exact ⟨_, hflush hmem, infix_flatMap hmem⟩
  | cons line lines ih =>
    rw [List.zipIdx_cons, blocksFrom]
    rw [List.zipIdx_cons, List.mem_append, List.mem_cons] at hentry
    cases hline : commentMark line with
    | none =>
      rcases hentry with hmem | rfl | hmem
      · exact ⟨_, List.mem_append_left _ (hflush hmem), infix_flatMap hmem⟩
      · rw [hline] at hmark
        cases hmark
      · obtain ⟨words, hblock, hheld⟩ := ih [] (k := k + taken.length + 1)
          (by simpa using hmem) (by simp)
        exact ⟨words, List.mem_append_right _ hblock, hheld⟩
    | some mark =>
      have hlater : entry ∈ (taken ++ [line]).zipIdx k ++
          lines.zipIdx (k + (taken ++ [line]).length) := by
        rw [List.zipIdx_append, List.zipIdx_singleton, List.length_append, List.length_singleton]
        simp only [List.mem_append, List.mem_singleton]
        rcases hentry with hmem | hmem | hmem
        · exact .inl (.inl hmem)
        · exact .inl (.inr hmem)
        · exact .inr (by rw [← Nat.add_assoc]; exact hmem)
      obtain ⟨words, hblock, hheld⟩ := ih (taken ++ [line]) hlater fun hmem =>
        mem_flushBlock.mpr ⟨fun hnil => hwords (List.flatMap_eq_nil_iff.mp hnil entry hmem), rfl⟩
      refine ⟨words, ?_, hheld⟩
      dsimp only
      rw [taken_concat hline, Nat.add_assoc]
      rw [List.length_append] at hblock
      exact hblock

/-- A quote that is found in a comment block lies on lines that hold it. -/
theorem block_match {lines : List (List Char)} {target : List Char} (htight : Words.Tight target)
    {block : CollapsedText} (hblock : block ∈ lineCommentBlocks lines) {offset : Nat}
    (h : offset ∈ Words.occurrences target block.text) :
    ∃ found i j, quoteMatchAt block.marks offset (offset + target.length) = some found ∧
      found.start = i + 1 ∧ found.stop = j + 1 ∧ i ≤ j ∧ j < lines.length ∧
      target <:+: Words.unwords (((lines.drop i).take (j + 1 - i)).flatMap unmarked) := by
  obtain ⟨front, part, back, hlines, rfl⟩ := mem_blocksFrom [] (k := 0) hblock
  rw [List.nil_append] at hlines
  rw [Nat.zero_add] at h ⊢
  obtain ⟨found, i, j, hfound, hstart, hstop, hij, hj, -, -, -, -, hbegins⟩ :=
    exists_range (g := unmarked) (fun _ _ hword => line_lineWords hword)
      (fun e => texts_lineWords (sourceLineStarts 0 lines) _ e) htight h
  refine ⟨found, front.length + i, front.length + j, hfound, by omega, by omega, by omega, ?_, ?_⟩
  · rw [hlines, List.length_append, List.length_append]
    omega
  · have hpart : (lines.drop (front.length + i)).take (front.length + j + 1 - (front.length + i)) =
        (part.drop i).take (j + 1 - i) := by
      rw [hlines, List.append_assoc, ← List.drop_drop, List.drop_left,
        List.drop_append_of_le_length (by omega),
        show front.length + j + 1 - (front.length + i) = j + 1 - i by omega,
        List.take_append_of_le_length (by rw [List.length_drop]; omega)]
    rw [hpart]
    exact hbegins.isInfix.trans (List.drop_suffix _ _).isInfix

/-! ## Every match -/

theorem exists_mapM_some {α β : Type} {f : α → Option β} {xs : List α}
    (h : ∀ x ∈ xs, ∃ y, f x = some y) :
    ∃ ys, xs.mapM f = some ys ∧ ∀ y, y ∈ ys ↔ ∃ x ∈ xs, f x = some y := by
  induction xs with
  | nil => exact ⟨[], rfl, by simp⟩
  | cons x xs ih =>
    obtain ⟨y, hy⟩ := h x List.mem_cons_self
    obtain ⟨ys, hys, hmem⟩ := ih fun z hz => h z (List.mem_cons_of_mem _ hz)
    refine ⟨y :: ys, by rw [List.mapM_cons, hy, hys]; rfl, fun z => ?_⟩
    rw [List.mem_cons, hmem]
    constructor
    · rintro (rfl | ⟨w, hw, hz⟩)
      · exact ⟨x, List.mem_cons_self, hy⟩
      · exact ⟨w, List.mem_cons_of_mem _ hw, hz⟩
    · rintro ⟨w, hw, hz⟩
      obtain rfl | hw := List.mem_cons.mp hw
      · exact .inl (Option.some.inj (hz.symm.trans hy))
      · exact .inr ⟨w, hw, hz⟩

/-- One occurrence of a quote in a stream of words. -/
def IsMatch (target : List Char) (block : CollapsedText) (found : QuoteMatch) : Prop :=
  ∃ offset ∈ Words.occurrences target block.text,
    quoteMatchAt block.marks offset (offset + target.length) = some found

theorem quoteMatchesIn_spec (quote : List Char) (block : CollapsedText)
    (h : Words.Tight (normalised quote) → ∀ offset ∈ Words.occurrences (normalised quote) block.text,
      ∃ found, quoteMatchAt block.marks offset (offset + (normalised quote).length) = some found) :
    ∃ found, quoteMatchesIn quote block = some found ∧
      ∀ one, one ∈ found ↔ normalised quote ≠ [] ∧ IsMatch (normalised quote) block one := by
  by_cases hempty : normalised quote = []
  · exact ⟨[], by simp [quoteMatchesIn, hempty], by simp [hempty]⟩
  · obtain ⟨found, hfound, hmem⟩ := exists_mapM_some (h (Words.tight_collapse hempty))
    refine ⟨found, by simpa [quoteMatchesIn, hempty] using hfound, fun one => ?_⟩
    rw [hmem]
    exact ⟨fun hone => ⟨hempty, hone⟩, fun hone => hone.2⟩

/-- The search of a quote never stops half-way, and finds every occurrence. -/
theorem allQuoteMatches_spec (quote : List Char) (lines : List (List Char)) :
    ∃ found, allQuoteMatches quote (collapsed lines) (lineCommentBlocks lines) = some found ∧
      ∀ one, one ∈ found ↔ normalised quote ≠ [] ∧
        (IsMatch (normalised quote) (collapsed lines) one ∨
          ∃ block ∈ lineCommentBlocks lines, IsMatch (normalised quote) block one) := by
  obtain ⟨raw, hraw, hrawMem⟩ := quoteMatchesIn_spec quote (collapsed lines)
    fun htight offset hoffset => by
      obtain ⟨found, i, j, hfound, -⟩ := raw_match htight hoffset
      exact ⟨found, hfound⟩
  have hblocks : ∀ block ∈ lineCommentBlocks lines, ∃ found,
      quoteMatchesIn quote block = some found ∧ ∀ one, one ∈ found ↔
        normalised quote ≠ [] ∧ IsMatch (normalised quote) block one := by
    intro block hblock
    apply quoteMatchesIn_spec
    intro htight offset hoffset
    obtain ⟨found, i, j, hfound, -⟩ := block_match htight hblock hoffset
    exact ⟨found, hfound⟩
  obtain ⟨parts, hparts, hpartsMem⟩ := exists_mapM_some (f := quoteMatchesIn quote)
    fun block hblock => (hblocks block hblock).imp fun _ h => h.1
  refine ⟨_, by rw [allQuoteMatches, hraw, hparts]; rfl, fun one => ?_⟩
  rw [List.mem_eraseDups, List.mem_mergeSort, List.mem_append, hrawMem, List.mem_flatten]
  constructor
  · rintro (⟨hne, hone⟩ | ⟨found, hfound, hone⟩)
    · exact ⟨hne, .inl hone⟩
    · obtain ⟨block, hblock, heq⟩ := (hpartsMem found).mp hfound
      obtain ⟨found', heq', hmem⟩ := hblocks block hblock
      obtain rfl : found' = found := Option.some.inj (heq'.symm.trans heq)
      exact ⟨((hmem one).mp hone).1, .inr ⟨block, hblock, ((hmem one).mp hone).2⟩⟩
  · rintro ⟨hne, hone | ⟨block, hblock, hone⟩⟩
    · exact .inl ⟨hne, hone⟩
    · obtain ⟨found, heq, hmem⟩ := hblocks block hblock
      exact .inr ⟨found, (hpartsMem found).mpr ⟨block, hblock, heq⟩, (hmem one).mpr ⟨hne, hone⟩⟩

/-! ## Against the checker -/

/-- A range of the file that passes the checker's test of an anchor. -/
structure Holds (anchor : Anchor) (lines : List (List Char)) (extent : Extent) : Prop where
  opened : 1 ≤ extent.start
  ordered : extent.start ≤ extent.stop
  inside : extent.stop ≤ lines.length
  held : anchor.occursIn (bodyOf lines extent.start extent.stop) = true

/-- Wherever the quote is found over a comment mark, the lines that it lies on
hold it without their marks as well. -/
def MarksSpared (quote : String) (lines : List (List Char)) : Prop :=
  ∀ offset ∈ Words.occurrences (normalised quote.toList)
      (Words.unwords (lines.flatMap Words.words)),
    takesMark lines offset (offset + (normalised quote.toList).length) = true →
    ∀ i j, LiesOn lines offset (offset + (normalised quote.toList).length) i j →
      normalised quote.toList <:+:
        Words.unwords (((lines.drop i).take (j + 1 - i)).flatMap unmarked)

section against
variable {quote : String} {lines : List (List Char)} (hplain : Plain lines)
include hplain

theorem held_range {i j : Nat} :
    Anchor.occursIn ⟨.quote, quote⟩ (bodyOf lines (i + 1) (j + 1)) = true ↔
      normalised quote.toList <:+:
        Words.unwords (((lines.drop i).take (j + 1 - i)).flatMap unmarked) := by
  rw [bodyOf_range, occursIn_quote]
  exact hplain.sublist ((List.take_sublist _ _).trans (List.drop_sublist _ _))

theorem held_of_block {block : CollapsedText} (hblock : block ∈ lineCommentBlocks lines)
    (hne : normalised quote.toList ≠ []) {found : QuoteMatch}
    (h : IsMatch (normalised quote.toList) block found) :
    Holds ⟨.quote, quote⟩ lines found.extent := by
  obtain ⟨offset, hoffset, hmatch⟩ := h
  obtain ⟨found', i, j, hfound, hstart, hstop, hij, hj, hheld⟩ :=
    block_match (Words.tight_collapse hne) hblock hoffset
  obtain rfl : found' = found := Option.some.inj (hfound.symm.trans hmatch)
  refine ⟨?_, ?_, ?_, ?_⟩
  · show 1 ≤ found'.start
    omega
  · show found'.start ≤ found'.stop
    omega
  · show found'.stop ≤ lines.length
    omega
  · show Anchor.occursIn _ (bodyOf lines found'.start found'.stop) = true
    rw [hstart, hstop]
    exact (held_range hplain).mpr hheld

/-- The raw matches of a quote all lie in the file, and pass the test exactly
when its marks are spared. -/
theorem marksSpared_iff (hne : normalised quote.toList ≠ []) :
    MarksSpared quote lines ↔ ∀ found,
      IsMatch (normalised quote.toList) (collapsed lines) found →
        Holds ⟨.quote, quote⟩ lines found.extent := by
  constructor
  · rintro h found ⟨offset, hoffset, hmatch⟩
    obtain ⟨found', i, j, hfound, hstart, hstop, hij, hj, hlies, hheld⟩ :=
      raw_match (Words.tight_collapse hne) hoffset
    obtain rfl : found' = found := Option.some.inj (hfound.symm.trans hmatch)
    refine ⟨?_, ?_, ?_, ?_⟩
    · show 1 ≤ found'.start
      omega
    · show found'.start ≤ found'.stop
      omega
    · show found'.stop ≤ lines.length
      omega
    · show Anchor.occursIn _ (bodyOf lines found'.start found'.stop) = true
      rw [hstart, hstop, held_range hplain]
      cases htakes : takesMark lines offset (offset + (normalised quote.toList).length) with
      | true => exact h offset (text_collapsed lines ▸ hoffset) htakes i j hlies
      | false => exact hheld htakes
  · intro h offset hoffset _ i j hlies
    rw [← text_collapsed] at hoffset
    obtain ⟨found, i', j', hfound, hstart, hstop, -, -, hlies', -⟩ :=
      raw_match (Words.tight_collapse hne) hoffset
    obtain ⟨rfl, rfl⟩ := hlies.unique hlies'
    have hheld : Anchor.occursIn _ (bodyOf lines found.start found.stop) = true :=
      (h found ⟨offset, hoffset, hfound⟩).held
    rwa [hstart, hstop, held_range hplain] at hheld

/-- A quote that a line holds is found in the file. -/
theorem exists_match_of_line {line : List Char} {index : Nat} (hline : lines[index]? = some line)
    (hne : normalised quote.toList ≠ [])
    (h : Anchor.occursIn ⟨.quote, quote⟩ line = true) :
    ∃ found, IsMatch (normalised quote.toList) (collapsed lines) found ∨
      ∃ block ∈ lineCommentBlocks lines, IsMatch (normalised quote.toList) block found := by
  have hmem : line ∈ lines := List.mem_of_getElem? hline
  have hentry : (line, index) ∈ lines.zipIdx := List.mem_zipIdx_iff_getElem?.mpr hline
  have hone : Plain [line] := hplain.sublist (List.singleton_sublist.mpr hmem)
  have hheld := (occursIn_quote hone).mp (by rw [List.intercalate_singleton]; exact h)
  rw [List.flatMap_singleton] at hheld
  have htight := Words.tight_collapse hne
  cases hmark : commentMark line with
  | none =>
    rw [unmarked_of_none hmark] at hheld
    have hwords : Words.words line <:+: lines.flatMap Words.words := infix_flatMap hmem
    obtain ⟨offset, hoffset⟩ := Words.exists_mem_occurrences hne
      (hheld.trans (Words.infix_unwords hwords))
    rw [← text_collapsed] at hoffset
    obtain ⟨found, i, j, hfound, -⟩ := raw_match htight hoffset
    exact ⟨found, .inl ⟨offset, hoffset, hfound⟩⟩
  | some mark =>
    have htexts : texts (commentWords (sourceLineStarts 0 lines) (line, index)) = unmarked line :=
      texts_lineWords _ _ _
    have hwords : commentWords (sourceLineStarts 0 lines) (line, index) ≠ [] := by
      intro hnil
      rw [hnil] at htexts
      rw [← htexts] at hheld
      exact hne (List.infix_nil.mp hheld)
    obtain ⟨words, hblock, hpart⟩ := exists_block [] lines (k := 0)
      (by simpa using hentry) (by rw [hmark]; rfl) hwords
    have hblock : stream words ∈ lineCommentBlocks lines := hblock
    have hstream : Words.unwords (unmarked line) <:+: (stream words).text := by
      rw [← htexts]
      exact Words.infix_unwords (hpart.map SourceWord.text)
    obtain ⟨offset, hoffset⟩ := Words.exists_mem_occurrences hne (hheld.trans hstream)
    obtain ⟨found, i, j, hfound, -⟩ := block_match htight hblock hoffset
    exact ⟨found, .inr ⟨stream words, hblock, offset, hoffset, hfound⟩⟩

end against

end AgentsRemember.Citations
