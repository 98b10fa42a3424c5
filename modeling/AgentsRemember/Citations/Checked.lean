import AgentsRemember.Citations.Generated

/-!
# Citations — Checked

The range generator against the range checker. What is generated from the text
of a file passes the checker's test, a line that passes it has a range, and a
view of the file answers the same: exactly for the anchors and files that keep
clear of three cases.
-/

namespace AgentsRemember.Citations

/-! ## Ranges from the text -/

/-- The kinds of ranges that are found by matching text. -/
def ExtentKind.matched : ExtentKind → Bool
  | .occurrence | .headed | .quoted => true
  | .definition | .call => false

/-- What the text alone gives for an anchor, before a syntax tree binds the
symbol or widens the quote. -/
def matchedExtents (anchor : Anchor) (lines : List (List Char)) : Option (List Extent) :=
  match anchor.kind with
  | .symbol => some (occurrenceRuns anchor.text.toList lines)
  | .heading => some (headingExtents anchor.text.toList lines)
  | .quote => quoteExtents anchor.text.toList lines

/-- The generator, the checker and a view of the file agree on an anchor. -/
structure Agrees (grammar : Grammar) (anchor : Anchor) (path : String)
    (lines : List (List Char)) : Prop where
  answers : ∃ extents, anchorExtents grammar anchor path lines = some extents
  sound : ∀ extents, anchorExtents grammar anchor path lines = some extents ∨
    matchedExtents anchor lines = some extents →
    ∀ extent ∈ extents, extent.kind.matched = true → Holds anchor lines extent
  complete : ∀ entry ∈ unfencedLines lines, anchor.occursIn entry.1 = true →
    anchorExtents grammar anchor path lines ≠ some []
  cached : ∀ asked, ((FileView.after grammar path lines asked).extents grammar anchor).1 =
    anchorExtents grammar anchor path lines

/-- What parts the two sides: a symbol that is found but is no identifier, a
heading that is found but is not in the form of headings, and a quote of words
that is found over a comment mark only, or of none. -/
def Clear (grammar : Grammar) (anchor : Anchor) (path : String)
    (lines : List (List Char)) : Prop :=
  match anchor.kind with
  | .symbol => isIdentifier anchor.text.toList = true ∨
      ((definitions grammar path lines).lookup anchor.text).getD [] = [] ∧
        ∀ line ∈ lines, wholeIdentifier anchor.text.toList line = false
  | .heading => (headingDepth anchor.text.toList).isSome = true ∨
      ∀ entry ∈ unfencedLines lines, anchor.occursIn entry.1 = false
  | .quote =>
    if normalised anchor.text.toList = [] then
      unfencedLines lines = [] ∨ grammar.callArgumentLiterals path lines ≠ []
    else MarksSpared anchor.text lines

/-! ## Symbols -/

section symbols
variable {grammar : Grammar} {name path : String} {lines : List (List Char)}

theorem lookup_definitions : (definitions grammar path lines).lookup name =
    ((grammar.definitions path lines).lookup name).map fun spans =>
      spans.map fun span => ⟨span.1, span.2, .definition⟩ := by
  rw [definitions]
  induction grammar.definitions path lines with
  | nil => rfl
  | cons e defined ih =>
    rw [List.map_cons, List.lookup_cons, List.lookup_cons]
    cases name == e.1 with
    | true => rfl
    | false => exact ih

theorem kind_of_bound {extent : Extent}
    (h : extent ∈ ((definitions grammar path lines).lookup name).getD []) :
    extent.kind = .definition := by
  rw [lookup_definitions] at h
  cases hlookup : (grammar.definitions path lines).lookup name with
  | none => simp [hlookup] at h
  | some spans =>
    rw [hlookup] at h
    obtain ⟨span, -, rfl⟩ := List.mem_map.mp h
    rfl

/-- An identifier that is no token of a file has no range in it. -/
theorem symbolExtents_of_not_mem (hname : isIdentifier name.toList = true)
    (hmem : name.toList ∉ identifiers (['\n'].intercalate lines)) :
    symbolExtents grammar name path lines = [] := by
  have hunbound : ((definitions grammar path lines).lookup name).getD [] = [] := by
    by_contra hbound
    refine hmem (grammar.bound_token path lines name (fun hnil => hbound ?_) hname)
    rw [lookup_definitions]
    cases hlookup : (grammar.definitions path lines).lookup name with
    | none => rfl
    | some spans =>
      obtain rfl : spans = [] := by simpa [hlookup] using hnil
      rfl
  rw [symbolExtents, hunbound]
  show (if [] ≠ [] then [] else occurrenceRuns name.toList lines) = []
  rw [if_neg (by simp)]
  by_contra hruns
  obtain ⟨line, hline, hholds⟩ := occurrenceRuns_ne_nil.mp hruns
  obtain ⟨a, b, htext, ha, hb⟩ := wholeIdentifier_iff.mp (wholeIdentifier_lines hline hholds)
  exact hmem (mem_identifiers hname htext ha hb)

theorem symbolExtents_eq_nil : symbolExtents grammar name path lines = [] ↔
    ((definitions grammar path lines).lookup name).getD [] = [] ∧
      ∀ line ∈ lines, wholeIdentifier name.toList line = false := by
  have hruns : occurrenceRuns name.toList lines = [] ↔
      ∀ line ∈ lines, wholeIdentifier name.toList line = false := by
    rw [← not_iff_not, ← ne_eq, occurrenceRuns_ne_nil]
    simp
  rw [symbolExtents]
  by_cases hbound : ((definitions grammar path lines).lookup name).getD [] = []
  · simp [hbound, hruns]
  · simp [hbound]

/-- A view answers for a symbol what the generator does. -/
theorem answered_symbol : answered grammar ⟨.symbol, name⟩ path lines =
      anchorExtents grammar ⟨.symbol, name⟩ path lines ↔
    Clear grammar ⟨.symbol, name⟩ path lines := by
  show _ ↔ isIdentifier name.toList = true ∨ _
  rw [← symbolExtents_eq_nil, answered]
  by_cases hname : isIdentifier name.toList = true
  · refine iff_of_true ?_ (.inl hname)
    split
    · rename_i hmem
      exact congrArg some (symbolExtents_of_not_mem hname hmem.2).symm
    · rfl
  · have hmem : name.toList ∉ identifiers (['\n'].intercalate lines) :=
      fun hmem => hname (isIdentifier_of_mem hmem)
    rw [if_pos ⟨rfl, hmem⟩]
    constructor
    · exact fun h => .inr (Option.some.inj h).symm
    · rintro (h | h)
      · exact absurd h hname
      · exact congrArg some h.symm

theorem agrees_symbol : Agrees grammar ⟨.symbol, name⟩ path lines ↔
    Clear grammar ⟨.symbol, name⟩ path lines := by
  rw [← answered_symbol]
  constructor
  · intro h
    rw [← h.cached [], (FileView.extents_fresh (FileView.after_fresh grammar path lines []) _).1]
  · intro h
    refine ⟨⟨_, rfl⟩, ?_, ?_, fun asked => ?_⟩
    · have hruns : ∀ extent ∈ occurrenceRuns name.toList lines,
          Holds ⟨.symbol, name⟩ lines extent := fun extent hextent => (holds_run hextent).1
      rintro extents (hextents | hextents) extent hmem hkind
      · obtain rfl : symbolExtents grammar name path lines = extents := Option.some.inj hextents
        rw [symbolExtents] at hmem
        split at hmem
        · -- what a tree binds is not matched in the text
          rw [kind_of_bound hmem] at hkind
          cases hkind
        · exact hruns extent hmem
      · obtain rfl : occurrenceRuns name.toList lines = extents := Option.some.inj hextents
        exact hruns extent hmem
    · intro entry hentry hholds hnil
      have hline := List.mem_of_getElem? (getElem?_of_mem_unfencedLines
        (show (entry.1, entry.2) ∈ unfencedLines lines from hentry))
      have hfalse := (symbolExtents_eq_nil.mp (Option.some.inj hnil)).2 entry.1 hline
      rw [show wholeIdentifier name.toList entry.1 = true from hholds] at hfalse
      cases hfalse
    · rw [← h, (FileView.extents_fresh (FileView.after_fresh grammar path lines asked) _).1]

end symbols

/-! ## Headings -/

section headings
variable {grammar : Grammar} {heading path : String} {lines : List (List Char)}

theorem agrees_heading (hplain : Plain lines) : Agrees grammar ⟨.heading, heading⟩ path lines ↔
    Clear grammar ⟨.heading, heading⟩ path lines := by
  show _ ↔ (headingDepth heading.toList).isSome = true ∨
    ∀ entry ∈ unfencedLines lines, Anchor.occursIn ⟨.heading, heading⟩ entry.1 = false
  constructor
  · intro h
    rw [or_iff_not_imp_left]
    intro hform entry hentry
    by_contra hholds
    refine h.complete entry hentry (by simpa using hholds) ?_
    exact congrArg some (headingExtents_eq_nil (by simpa using hform))
  · intro h
    refine ⟨⟨_, rfl⟩, ?_, ?_, fun asked => ?_⟩
    · rintro extents hextents extent hmem -
      obtain rfl : headingExtents heading.toList lines = extents :=
        Option.some.inj (hextents.elim id id)
      exact (holds_section hplain hmem).1
    · intro entry hentry hholds hnil
      have hline := List.mem_of_getElem? (getElem?_of_mem_unfencedLines
        (show (entry.1, entry.2) ∈ unfencedLines lines from hentry))
      rcases h with hform | hnone
      · exact headingExtents_ne_nil hentry (occursIn_heading_line (hplain _ hline) hholds) hform
          (Option.some.inj hnil)
      · rw [hnone entry hentry] at hholds
        cases hholds
    · rw [(FileView.extents_fresh (FileView.after_fresh grammar path lines asked) _).1]
      rfl

end headings

/-! ## Quotes -/

theorem mem_widenedQuotes {quote : String} {found : List QuoteMatch} {calls : List CallLiteral}
    {extent : Extent} : extent ∈ widenedQuotes quote found calls ↔
      (∃ call ∈ calls, Anchor.occursIn ⟨.quote, quote⟩ call.text = true ∧
        extent = ⟨call.start, call.stop, .call⟩) ∨
      ∃ one ∈ found, covered (calls.filter fun call =>
        Anchor.occursIn ⟨.quote, quote⟩ call.text) one = false ∧ extent = one.extent := by
  simp only [widenedQuotes, List.mem_eraseDups, List.mem_mergeSort, List.mem_append, List.mem_map,
    List.mem_filter, Bool.not_eq_true', and_assoc, eq_comm (a := extent)]

/-- A match is widened to a call or stays. -/
theorem widenedQuotes_eq_nil {quote : String} {found : List QuoteMatch}
    {calls : List CallLiteral} : widenedQuotes quote found calls = [] ↔ found = [] ∧
      ∀ call ∈ calls, Anchor.occursIn ⟨.quote, quote⟩ call.text = false := by
  constructor
  · intro h
    have hnone : ∀ extent, extent ∉ widenedQuotes quote found calls := by simp [h]
    have hcalls : ∀ call ∈ calls, Anchor.occursIn ⟨.quote, quote⟩ call.text = false := by
      intro call hcall
      by_contra hholds
      exact hnone _ (mem_widenedQuotes.mpr (.inl ⟨call, hcall, by simpa using hholds, rfl⟩))
    refine ⟨List.eq_nil_iff_forall_not_mem.mpr fun one hone => ?_, hcalls⟩
    refine hnone _ (mem_widenedQuotes.mpr (.inr ⟨one, hone, ?_, rfl⟩))
    rw [List.filter_eq_nil_iff.mpr fun call hcall => by simp [hcalls call hcall]]
    rfl
  · rintro ⟨rfl, hcalls⟩
    refine List.eq_nil_iff_forall_not_mem.mpr fun extent hextent => ?_
    rcases mem_widenedQuotes.mp hextent with ⟨call, hcall, hholds, -⟩ | ⟨one, hone, -⟩
    · rw [hcalls call hcall] at hholds
      cases hholds
    · cases hone

section quotes
variable {grammar : Grammar} {quote path : String} {lines : List (List Char)}

theorem occursIn_blank (hempty : normalised quote.toList = []) (body : List Char) :
    Anchor.occursIn ⟨.quote, quote⟩ body = true := by
  show decide (normalised quote.toList <:+: quoteNormalised body) = true
  rw [hempty]
  exact decide_eq_true List.nil_infix

/-- The matches of a quote are what the generator works on. -/
theorem exists_matches (grammar : Grammar) (quote path : String) (lines : List (List Char)) :
    ∃ found, anchorExtents grammar ⟨.quote, quote⟩ path lines =
        some (widenedQuotes quote found (grammar.callArgumentLiterals path lines)) ∧
      matchedExtents ⟨.quote, quote⟩ lines = some (quoteMatchExtents found) ∧
      ∀ one, one ∈ found ↔ normalised quote.toList ≠ [] ∧
        (IsMatch (normalised quote.toList) (collapsed lines) one ∨
          ∃ block ∈ lineCommentBlocks lines, IsMatch (normalised quote.toList) block one) := by
  obtain ⟨found, hfound, hmem⟩ := allQuoteMatches_spec quote.toList lines
  refine ⟨found, ?_, ?_, hmem⟩
  · show quoteExtentsForPath grammar quote path lines = _
    rw [quoteExtentsForPath, hfound]
    rfl
  · show quoteExtents quote.toList lines = _
    rw [quoteExtents, hfound]
    rfl

theorem mem_quoteMatchExtents {found : List QuoteMatch} {extent : Extent} :
    extent ∈ quoteMatchExtents found ↔ ∃ one ∈ found, extent = one.extent := by
  simp only [quoteMatchExtents, List.mem_eraseDups, List.mem_map, eq_comm (a := extent)]

/-- Extents of a quote that are not those of calls are those of matches. -/
theorem exists_match_of_extent {found : List QuoteMatch} {extents : List Extent}
    {calls : List CallLiteral} {extent : Extent}
    (h : widenedQuotes quote found calls = extents ∨ quoteMatchExtents found = extents)
    (hmem : extent ∈ extents) (hkind : extent.kind.matched = true) :
    ∃ one ∈ found, extent = one.extent := by
  rcases h with rfl | rfl
  · rcases mem_widenedQuotes.mp hmem with ⟨call, -, -, rfl⟩ | ⟨one, hone, -, rfl⟩
    · cases hkind
    · exact ⟨one, hone, rfl⟩
  · exact mem_quoteMatchExtents.mp hmem

theorem agrees_blank (hempty : normalised quote.toList = []) :
    Agrees grammar ⟨.quote, quote⟩ path lines ↔
      unfencedLines lines = [] ∨ grammar.callArgumentLiterals path lines ≠ [] := by
  obtain ⟨found, hgenerated, hmatched, hmem⟩ := exists_matches grammar quote path lines
  obtain rfl : found = [] :=
    List.eq_nil_iff_forall_not_mem.mpr fun one hone => ((hmem one).mp hone).1 hempty
  have hnil : anchorExtents grammar ⟨.quote, quote⟩ path lines = some [] ↔
      grammar.callArgumentLiterals path lines = [] := by
    rw [hgenerated, Option.some.injEq, widenedQuotes_eq_nil]
    constructor
    · rintro ⟨-, hcalls⟩
      refine List.eq_nil_iff_forall_not_mem.mpr fun call hcall => ?_
      have hfalse := hcalls call hcall
      rw [occursIn_blank hempty] at hfalse
      cases hfalse
    · exact fun h => ⟨rfl, by simp [h]⟩
  constructor
  · intro h
    rw [or_iff_not_imp_left]
    intro hlines
    obtain ⟨entry, hentry⟩ := List.exists_mem_of_ne_nil _ hlines
    exact fun hcalls => h.complete entry hentry (occursIn_blank hempty _) (hnil.mpr hcalls)
  · intro h
    refine ⟨⟨_, hgenerated⟩, ?_, ?_, fun asked => ?_⟩
    · intro extents hextents extent hextent hkind
      rw [hgenerated, hmatched, Option.some.injEq, Option.some.injEq] at hextents
      obtain ⟨one, hone, -⟩ := exists_match_of_extent hextents hextent hkind
      cases hone
    · intro entry hentry _ hsome
      rcases h with h | h
      · rw [h] at hentry
        cases hentry
      · exact h (hnil.mp hsome)
    · rw [(FileView.extents_fresh (FileView.after_fresh grammar path lines asked) _).1]
      rfl

theorem agrees_words (hplain : Plain lines) (hne : normalised quote.toList ≠ []) :
    Agrees grammar ⟨.quote, quote⟩ path lines ↔ MarksSpared quote lines := by
  obtain ⟨found, hgenerated, hmatched, hmem⟩ := exists_matches grammar quote path lines
  rw [marksSpared_iff hplain hne]
  constructor
  · intro h one hone
    refine h.sound _ (.inr hmatched) one.extent (mem_quoteMatchExtents.mpr ⟨one, ?_, rfl⟩) rfl
    exact (hmem one).mpr ⟨hne, .inl hone⟩
  · intro h
    refine ⟨⟨_, hgenerated⟩, ?_, ?_, fun asked => ?_⟩
    · intro extents hextents extent hextent hkind
      rw [hgenerated, hmatched, Option.some.injEq, Option.some.injEq] at hextents
      obtain ⟨one, hone, rfl⟩ := exists_match_of_extent hextents hextent hkind
      obtain ⟨-, hraw | ⟨block, hblock, hone⟩⟩ := (hmem one).mp hone
      · exact h one hraw
      · exact held_of_block hplain hblock hne hone
    · intro entry hentry hholds hnil
      obtain ⟨one, hone⟩ := exists_match_of_line hplain (getElem?_of_mem_unfencedLines
        (show (entry.1, entry.2) ∈ unfencedLines lines from hentry)) hne hholds
      rw [hgenerated, Option.some.injEq, widenedQuotes_eq_nil] at hnil
      have hfound := (hmem one).mpr ⟨hne, hone⟩
      rw [hnil.1] at hfound
      cases hfound
    · rw [(FileView.extents_fresh (FileView.after_fresh grammar path lines asked) _).1]
      rfl

end quotes

/-! ## The agreement -/

theorem plain_splitlines (text : List Char) : Plain (Lines.splitlines text) :=
  fun _ hline _ hc => Lines.isBreak_of_mem_splitlines hline hc

/-- For every content of a file, the generator, the checker and the view of the
file agree on an anchor exactly when the anchor is clear there. -/
theorem generator_satisfies_checker (grammar : Grammar) (anchor : Anchor) (path : String)
    (text : List Char) : Agrees grammar anchor path (Lines.splitlines text) ↔
      Clear grammar anchor path (Lines.splitlines text) := by
  have hplain := plain_splitlines text
  obtain ⟨kind, name⟩ := anchor
  cases kind with
  | symbol => exact agrees_symbol
  | heading => exact agrees_heading hplain
  | quote =>
    show _ ↔ if normalised name.toList = [] then _ else _
    by_cases hempty : normalised name.toList = []
    · rw [if_pos hempty]
      exact agrees_blank hempty
    · rw [if_neg hempty]
      exact agrees_words hplain hempty

/-- A quote that begins with the mark of the comment it stands in is given a
range that does not pass the test. -/
theorem quoted_mark_unheld :
    ¬ Agrees Grammar.plain ⟨.quote, "// keep"⟩ "app.js" (Lines.splitlines "// keep".toList) := by
  have hne : normalised "// keep".toList ≠ [] := by decide
  rw [agrees_words (plain_splitlines _) hne]
  intro h
  have hheld := h 0 (by decide) (by decide) 0 0 ⟨by decide, by decide, by decide, by decide⟩
  revert hheld
  decide

end AgentsRemember.Citations
