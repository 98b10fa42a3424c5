import AgentsRemember.History.Fixer

/-!
# History — Blocks

What the fixer does to one section. A section is the lines in front of its first
bullet and its blocks, in one way only; sorting puts the blocks in another order
and keeps their lines. It stops at an instant that no date is for, when no block
in front of it lacks a timestamp.
-/

namespace AgentsRemember.History

/-! ## One way to read a section -/

/-- A bullet and the lines behind it. -/
def IsBlock : List Line → Prop
  | [] => False
  | first :: rest => isBullet first = true ∧ ∀ line ∈ rest, isBullet line = false

/-- The lines in front of the first bullet, and the blocks. -/
structure Parsed (lines front : List Line) (blocks : List (List Line)) : Prop where
  whole : lines = front ++ blocks.flatten
  front : ∀ line ∈ front, isBullet line = false
  blocks : ∀ block ∈ blocks, IsBlock block

/-- The blocks met so far, the one at work among them. -/
def BlockScan.met (scan : BlockScan) : List (List Line) := scan.blocks ++ scan.current.toList

theorem foldl_front {lines : List Line} (h : ∀ line ∈ lines, isBullet line = false)
    {scan : BlockScan} (hcurrent : scan.current = none) :
    lines.foldl scanLine scan = { scan with front := scan.front ++ lines } := by
  induction lines generalizing scan with
  | nil => simp
  | cons line lines ih =>
    have hline : scanLine scan line = { scan with front := scan.front ++ [line] } := by
      simp [scanLine, h line (by simp), hcurrent]
    rw [List.foldl_cons, hline, ih (fun l hl => h l (by simp [hl])) (by exact hcurrent)]
    simp

theorem foldl_behind {lines : List Line} (h : ∀ line ∈ lines, isBullet line = false)
    {scan : BlockScan} {block : List Line} (hcurrent : scan.current = some block) :
    lines.foldl scanLine scan = { scan with current := some (block ++ lines) } := by
  induction lines generalizing scan block with
  | nil => simp [← hcurrent]
  | cons line lines ih =>
    have hline : scanLine scan line = { scan with current := some (block ++ [line]) } := by
      simp [scanLine, h line (by simp), hcurrent]
    rw [List.foldl_cons, hline, ih (fun l hl => h l (by simp [hl])) rfl]
    simp

theorem foldl_block {block : List Line} (h : IsBlock block) (scan : BlockScan) :
    block.foldl scanLine scan = ⟨scan.front, scan.met, some block⟩ := by
  cases block with
  | nil => exact h.elim
  | cons first rest =>
    have hfirst : scanLine scan first = ⟨scan.front, scan.met, some [first]⟩ := by
      simp [scanLine, h.1, BlockScan.met]
    rw [List.foldl_cons, hfirst, foldl_behind h.2 rfl]
    rfl

theorem foldl_blocks {blocks : List (List Line)} (h : ∀ block ∈ blocks, IsBlock block)
    (scan : BlockScan) :
    (blocks.flatten.foldl scanLine scan).front = scan.front ∧
      (blocks.flatten.foldl scanLine scan).met = scan.met ++ blocks := by
  induction blocks generalizing scan with
  | nil => simp
  | cons block blocks ih =>
    rw [List.flatten_cons, List.foldl_append, foldl_block (h block (by simp))]
    obtain ⟨hfront, hmet⟩ := ih (fun b hb => h b (by simp [hb])) ⟨scan.front, scan.met, some block⟩
    rw [hfront, hmet]
    simp [BlockScan.met]

/-- A section is read in one way. -/
theorem Parsed.eq {lines front : List Line} {blocks : List (List Line)}
    (h : Parsed lines front blocks) : parseBulletBlocks lines = (front, blocks) := by
  have hfront : front.foldl scanLine {} = { front := front } := by
    rw [foldl_front h.front rfl]
    simp
  obtain ⟨hsame, hmet⟩ := foldl_blocks h.blocks { front := front }
  have hfold : lines.foldl scanLine {} = blocks.flatten.foldl scanLine { front := front } := by
    rw [h.whole, List.foldl_append, hfront]
  unfold parseBulletBlocks
  rw [hfold]
  exact Prod.ext hsame hmet

theorem Parsed.snoc {lines front : List Line} {blocks : List (List Line)}
    (h : Parsed lines front blocks) (line : Line) :
    ∃ front' blocks', Parsed (lines ++ [line]) front' blocks' := by
  by_cases hbullet : isBullet line = true
  · refine ⟨front, blocks ++ [[line]], ?_, h.front, ?_⟩
    · simp [h.whole]
    · intro block hblock
      rcases List.mem_append.mp hblock with hblock | hblock
      · exact h.blocks block hblock
      · rw [List.mem_singleton.mp hblock]
        exact ⟨hbullet, fun _ hl => absurd hl List.not_mem_nil⟩
  · have hline : isBullet line = false := Bool.eq_false_iff.mpr hbullet
    rcases List.eq_nil_or_concat blocks with hnil | ⟨init, last, hlast⟩
    · refine ⟨front ++ [line], [], ?_, ?_, by simp⟩
      · simp [h.whole, hnil]
      · intro l hl
        rcases List.mem_append.mp hl with hl | hl
        · exact h.front l hl
        · rw [List.mem_singleton.mp hl]
          exact hline
    · rw [List.concat_eq_append] at hlast
      refine ⟨front, init ++ [last ++ [line]], ?_, h.front, ?_⟩
      · simp [h.whole, hlast]
      · have hinit : ∀ block ∈ init, IsBlock block := fun b hb => h.blocks b (by simp [hlast, hb])
        have hblock : IsBlock last := h.blocks last (by simp [hlast])
        intro block hmem
        rcases List.mem_append.mp hmem with hmem | hmem
        · exact hinit block hmem
        · rw [List.mem_singleton.mp hmem]
          cases last with
          | nil => exact hblock.elim
          | cons first rest =>
            refine ⟨hblock.1, fun l hl => ?_⟩
            rcases List.mem_append.mp hl with hl | hl
            · exact hblock.2 l hl
            · rw [List.mem_singleton.mp hl]
              exact hline

theorem exists_parsed (lines : List Line) : ∃ front blocks, Parsed lines front blocks := by
  induction lines using List.reverseRecOn with
  | nil => exact ⟨[], [], rfl, by simp, by simp⟩
  | append_singleton lines line ih =>
    obtain ⟨front, blocks, h⟩ := ih
    exact h.snoc line

theorem parsed_parseBulletBlocks (lines : List Line) :
    Parsed lines (parseBulletBlocks lines).1 (parseBulletBlocks lines).2 := by
  obtain ⟨front, blocks, h⟩ := exists_parsed lines
  rw [h.eq]
  exact h

/-! ## Timestamps -/

/-- The block has a timestamp, of a date. -/
def Stamped (block : List Line) : Prop := ∃ value, blockTimestamp block = .ok (some value)

/-- An instant that no date is for, and no block without a timestamp in front of it. -/
def Overflows (lines : List Line) : Prop :=
  ∃ front block back, (parseBulletBlocks lines).2 = front ++ block :: back ∧
    (∀ b ∈ front, Stamped b) ∧ blockTimestamp block = .error .overflow

/-- A bullet without a valid timestamp, or timestamps of two frames. -/
def Skipped (lines : List Line) : Prop :=
  (∃ block ∈ (parseBulletBlocks lines).2, blockTimestamp block = .ok none) ∨
    mixesTimestampFrames (parseBulletBlocks lines).2 = true

/-- The blocks come newest first. -/
def NewestFirst (lines : List Line) : Prop :=
  (parseBulletBlocks lines).2.Pairwise fun a b => sortValue b ≤ sortValue a

theorem blockTimestamp_error {block : List Line} {e : TimeError}
    (h : blockTimestamp block = .error e) : e = .overflow := by
  unfold blockTimestamp at h
  split at h
  · cases h
  · split at h
    · cases h
    · cases h
    · exact (Except.error.inj h).symm

theorem sortValue_of_stamped {block : List Line} {value : Int}
    (h : blockTimestamp block = .ok (some value)) : sortValue block = value := by
  rw [sortValue, h]

/-- The blocks are read up to the first that has no timestamp. -/
theorem anyUnstamped_spec (blocks : List (List Line)) :
    (anyUnstamped blocks = .ok false ∧ ∀ block ∈ blocks, Stamped block) ∨
    (anyUnstamped blocks = .ok true ∧ ∃ front block back, blocks = front ++ block :: back ∧
      (∀ b ∈ front, Stamped b) ∧ blockTimestamp block = .ok none) ∨
    (anyUnstamped blocks = .error .overflow ∧ ∃ front block back, blocks = front ++ block :: back ∧
      (∀ b ∈ front, Stamped b) ∧ blockTimestamp block = .error .overflow) := by
  induction blocks with
  | nil => exact .inl ⟨rfl, by simp⟩
  | cons block blocks ih =>
    cases hblock : blockTimestamp block with
    | error e =>
      cases blockTimestamp_error hblock
      refine .inr (.inr ⟨?_, [], block, blocks, rfl, by simp, hblock⟩)
      rw [anyUnstamped, hblock]
      rfl
    | ok stamp =>
      cases stamp with
      | none =>
        refine .inr (.inl ⟨?_, [], block, blocks, rfl, by simp, hblock⟩)
        rw [anyUnstamped, hblock]
        rfl
      | some value =>
        have hrest : anyUnstamped (block :: blocks) = anyUnstamped blocks := by
          rw [anyUnstamped, hblock]
          rfl
        have hstamped : Stamped block := ⟨value, hblock⟩
        have hfront : ∀ front : List (List Line), (∀ b ∈ front, Stamped b) →
            ∀ b ∈ block :: front, Stamped b := by
          intro front hfront b hb
          rcases List.mem_cons.mp hb with rfl | hb
          · exact hstamped
          · exact hfront b hb
        rw [hrest]
        rcases ih with ⟨h, hall⟩ | ⟨h, front, b, back, rfl, hall, hb⟩ |
          ⟨h, front, b, back, rfl, hall, hb⟩
        · exact .inl ⟨h, hfront blocks hall⟩
        · exact .inr (.inl ⟨h, block :: front, b, back, rfl, hfront front hall, hb⟩)
        · exact .inr (.inr ⟨h, block :: front, b, back, rfl, hfront front hall, hb⟩)

/-- The first block that is not stamped is one block only. -/
theorem first_unstamped {front front' back back' : List (List Line)} {block block' : List Line}
    (h : front ++ block :: back = front' ++ block' :: back') (hfront : ∀ b ∈ front, Stamped b)
    (hblock : ¬Stamped block) (hfront' : ∀ b ∈ front', Stamped b) (hblock' : ¬Stamped block') :
    block = block' := by
  induction front generalizing front' with
  | nil =>
    cases front' with
    | nil => exact (List.cons.inj h).1
    | cons b front' =>
      rw [List.nil_append, List.cons_append, List.cons.injEq] at h
      exact absurd (hfront' b (by simp)) (h.1 ▸ hblock)
  | cons a front ih =>
    cases front' with
    | nil =>
      rw [List.nil_append, List.cons_append, List.cons.injEq] at h
      exact absurd (hfront a (by simp)) (h.1 ▸ hblock')
    | cons b front' =>
      rw [List.cons_append, List.cons_append, List.cons.injEq] at h
      exact ih h.2 (fun c hc => hfront c (by simp [hc])) fun c hc => hfront' c (by simp [hc])

theorem not_stamped_of_none {block : List Line} (h : blockTimestamp block = .ok none) :
    ¬Stamped block := by
  rintro ⟨value, hvalue⟩
  rw [h] at hvalue
  cases hvalue

theorem not_stamped_of_overflow {block : List Line} (h : blockTimestamp block = .error .overflow) :
    ¬Stamped block := by
  rintro ⟨value, hvalue⟩
  rw [h] at hvalue
  cases hvalue

/-! ## One section -/

/-- What sorting makes of a section: it stops, leaves it, or puts its blocks in order. -/
theorem sortSection_spec (lines : List Line) :
    (sortSection lines = .error .overflow ∧ Overflows lines) ∨
    (sortSection lines = .ok (lines, true) ∧ Skipped lines ∧ ¬Overflows lines) ∨
    (sortSection lines = .ok ((parseBulletBlocks lines).1 ++
        (Canonical.descending sortValue (parseBulletBlocks lines).2).flatten, false) ∧
      ¬Skipped lines ∧ ¬Overflows lines ∧ ∀ block ∈ (parseBulletBlocks lines).2, Stamped block) := by
  have hsort : sortSection lines =
      if (parseBulletBlocks lines).2 = [] then .ok (lines, false)
      else do
        if ← anyUnstamped (parseBulletBlocks lines).2 then return (lines, true)
        if mixesTimestampFrames (parseBulletBlocks lines).2 then return (lines, true)
        return ((parseBulletBlocks lines).1 ++
          (Canonical.descending sortValue (parseBulletBlocks lines).2).flatten, false) := rfl
  rcases anyUnstamped_spec (parseBulletBlocks lines).2 with ⟨hany, hall⟩ |
    ⟨hany, front, block, back, hblocks, hfront, hnone⟩ |
    ⟨hany, front, block, back, hblocks, hfront, hoverflow⟩
  · have hover : ¬Overflows lines := by
      rintro ⟨front, block, back, hblocks, -, hblock⟩
      exact not_stamped_of_overflow hblock (hall block (by simp [hblocks]))
    by_cases hmixes : mixesTimestampFrames (parseBulletBlocks lines).2 = true
    · have hne : (parseBulletBlocks lines).2 ≠ [] := by
        intro hnil
        rw [hnil] at hmixes
        cases hmixes
      refine .inr (.inl ⟨?_, .inr hmixes, hover⟩)
      rw [hsort, if_neg hne, hany, hmixes]
      rfl
    · refine .inr (.inr ⟨?_, ?_, hover, hall⟩)
      · rw [hsort]
        by_cases hnil : (parseBulletBlocks lines).2 = []
        · have hfront := (parsed_parseBulletBlocks lines).whole
          rw [hnil, List.flatten_nil, List.append_nil] at hfront
          rw [if_pos hnil, hnil, ← hfront]
          simp [Canonical.descending, Canonical.sorted]
        · rw [if_neg hnil, hany, Bool.eq_false_iff.mpr hmixes]
          rfl
      · rintro (⟨block, hblock, hnone⟩ | h)
        · exact not_stamped_of_none hnone (hall block hblock)
        · exact hmixes h
  · refine .inr (.inl ⟨?_, .inl ⟨block, by simp [hblocks], hnone⟩, ?_⟩)
    · have hne : (parseBulletBlocks lines).2 ≠ [] := by simp [hblocks]
      rw [hsort, if_neg hne, hany]
      rfl
    · rintro ⟨front', block', back', hblocks', hfront', hoverflow⟩
      have hsame := first_unstamped (hblocks.symm.trans hblocks') hfront
        (not_stamped_of_none hnone) hfront' (not_stamped_of_overflow hoverflow)
      rw [hsame, hoverflow] at hnone
      cases hnone
  · refine .inl ⟨?_, front, block, back, hblocks, hfront, hoverflow⟩
    have hne : (parseBulletBlocks lines).2 ≠ [] := by simp [hblocks]
    rw [hsort, if_neg hne, hany]
    rfl

/-- The lines of a section behind the sorting. -/
def sortedLines (lines : List Line) : List Line :=
  match sortSection lines with
  | .ok (sorted, _) => sorted
  | .error _ => lines

variable {lines : List Line}

theorem sortSection_eq_ok (h : ¬Overflows lines) :
    ∃ skipped, sortSection lines = .ok (sortedLines lines, skipped) := by
  rcases sortSection_spec lines with ⟨-, hover⟩ | ⟨hsort, -, -⟩ | ⟨hsort, -, -, -⟩
  · exact absurd hover h
  · exact ⟨true, by rw [sortedLines, hsort]⟩
  · exact ⟨false, by rw [sortedLines, hsort]⟩

theorem sortedLines_of_skipped (h : Skipped lines) : sortedLines lines = lines := by
  rcases sortSection_spec lines with ⟨hsort, -⟩ | ⟨hsort, -, -⟩ | ⟨-, hnot, -, -⟩
  · rw [sortedLines, hsort]
  · rw [sortedLines, hsort]
  · exact absurd h hnot

/-- A section that is neither skipped nor out of range has its blocks in order. -/
theorem parsed_sortedLines (hskip : ¬Skipped lines) (hover : ¬Overflows lines) :
    Parsed (sortedLines lines) (parseBulletBlocks lines).1
      (Canonical.descending sortValue (parseBulletBlocks lines).2) := by
  rcases sortSection_spec lines with ⟨-, h⟩ | ⟨-, h, -⟩ | ⟨hsort, -, -, -⟩
  · exact absurd h hover
  · exact absurd h hskip
  · refine ⟨by rw [sortedLines, hsort], (parsed_parseBulletBlocks lines).front, fun block hblock => ?_⟩
    exact (parsed_parseBulletBlocks lines).blocks block ((Canonical.descending_perm _).mem_iff.mp hblock)

theorem stamped_of_not_skipped (hskip : ¬Skipped lines) (hover : ¬Overflows lines) :
    ∀ block ∈ (parseBulletBlocks lines).2, Stamped block := by
  rcases sortSection_spec lines with ⟨-, h⟩ | ⟨-, h, -⟩ | ⟨-, -, -, hall⟩
  · exact absurd h hover
  · exact absurd h hskip
  · exact hall

theorem parse_sortedLines (hover : ¬Overflows lines) :
    (parseBulletBlocks (sortedLines lines)).1 = (parseBulletBlocks lines).1 ∧
      (parseBulletBlocks (sortedLines lines)).2.Perm (parseBulletBlocks lines).2 := by
  by_cases hskip : Skipped lines
  · rw [sortedLines_of_skipped hskip]
    exact ⟨rfl, .refl _⟩
  · rw [(parsed_sortedLines hskip hover).eq]
    exact ⟨rfl, Canonical.descending_perm _⟩

theorem sortedLines_perm (hover : ¬Overflows lines) : (sortedLines lines).Perm lines := by
  obtain ⟨hfront, hblocks⟩ := parse_sortedLines hover
  rw [(parsed_parseBulletBlocks (sortedLines lines)).whole, hfront]
  conv_rhs => rw [(parsed_parseBulletBlocks lines).whole]
  exact (List.Perm.refl _).append hblocks.flatten

theorem mixesTimestampFrames_perm {blocks blocks' : List (List Line)} (h : blocks.Perm blocks') :
    mixesTimestampFrames blocks = mixesTimestampFrames blocks' := by
  have hframes : ((blocks.filterMap blockTimestampText).map hasOffset).Perm
      ((blocks'.filterMap blockTimestampText).map hasOffset) := (h.filterMap _).map _
  have hcontains : ∀ b, ((blocks.filterMap blockTimestampText).map hasOffset).contains b =
      ((blocks'.filterMap blockTimestampText).map hasOffset).contains b := by
    intro b
    rw [Bool.eq_iff_iff, List.contains_iff_mem, List.contains_iff_mem, hframes.mem_iff]
  simp only [mixesTimestampFrames, hcontains]

/-- Whether a section is skipped does not depend on the order of its blocks. -/
theorem skipped_sortedLines (hover : ¬Overflows lines) :
    Skipped (sortedLines lines) ↔ Skipped lines := by
  obtain ⟨-, hblocks⟩ := parse_sortedLines hover
  unfold Skipped
  rw [mixesTimestampFrames_perm hblocks]
  simp only [hblocks.mem_iff]

theorem newestFirst_sortedLines (hskip : ¬Skipped lines) (hover : ¬Overflows lines) :
    NewestFirst (sortedLines lines) := by
  unfold NewestFirst
  rw [(parsed_sortedLines hskip hover).eq]
  exact Canonical.descending_pairwise _

theorem sortedLines_eq_iff (hskip : ¬Skipped lines) (hover : ¬Overflows lines) :
    sortedLines lines = lines ↔ NewestFirst lines := by
  constructor
  · intro h
    rw [← h]
    exact newestFirst_sortedLines hskip hover
  · intro h
    have hparsed := parsed_sortedLines hskip hover
    rw [Canonical.descending_eq_iff.mpr h] at hparsed
    rw [hparsed.whole, ← (parsed_parseBulletBlocks lines).whole]

theorem not_overflows_sortedLines (hover : ¬Overflows lines) : ¬Overflows (sortedLines lines) := by
  by_cases hskip : Skipped lines
  · rw [sortedLines_of_skipped hskip]
    exact hover
  · rintro ⟨front, block, back, hblocks, -, hblock⟩
    have hin : block ∈ (parseBulletBlocks lines).2 := by
      rw [← (parse_sortedLines hover).2.mem_iff, hblocks]
      simp
    exact not_stamped_of_overflow hblock (stamped_of_not_skipped hskip hover block hin)

/-- Sorting a section again leaves it as it is. -/
theorem sortedLines_sortedLines (hover : ¬Overflows lines) :
    sortedLines (sortedLines lines) = sortedLines lines := by
  by_cases hskip : Skipped lines
  · rw [sortedLines_of_skipped hskip, sortedLines_of_skipped hskip]
  · have hskip' : ¬Skipped (sortedLines lines) := (skipped_sortedLines hover).not.mpr hskip
    exact (sortedLines_eq_iff hskip' (not_overflows_sortedLines hover)).mpr
      (newestFirst_sortedLines hskip hover)

/-! ## What the checker reads -/

theorem matchPieces_length {pieces text matched rest : List Char}
    (h : matchPieces pieces text = some (matched, rest)) : matched.length = pieces.length := by
  induction pieces generalizing text matched rest with
  | nil =>
    cases h
    rfl
  | cons piece pieces ih =>
    cases text with
    | nil => cases h
    | cons c text =>
      rw [matchPieces] at h
      split at h
      · obtain ⟨⟨matched', rest'⟩, hrest, heq⟩ := Option.map_eq_some_iff.mp h
        cases heq
        rw [List.length_cons, List.length_cons, ih hrest]
      · cases h

theorem parseTimestamp_ne_nil {text timestamp : List Char}
    (h : parseTimestamp text = some timestamp) : timestamp ≠ [] := by
  unfold parseTimestamp timestampPattern at h
  obtain ⟨⟨clock, rest⟩, hclock, h⟩ := Option.bind_eq_some_iff.mp h
  obtain ⟨⟨stamp, tail⟩, hfind, rfl⟩ := Option.map_eq_some_iff.mp h
  have hin := List.mem_of_find?_eq_some hfind
  simp only [List.mem_flatMap, List.mem_map, Prod.exists, Prod.mk.injEq] at hin
  obtain ⟨seconds, rest', -, offset, rest'', -, rfl, -⟩ := hin
  have hlength := matchPieces_length hclock
  intro hnil
  have hboth : clock = [] ∧ seconds = [] := by simpa using (List.append_eq_nil_iff.mp hnil).1
  rw [hboth.1] at hlength
  exact absurd hlength (by decide)

/-- The entry of a block: its own value, in its own frame. -/
def EntryOf (block : List Line) (entry : HistoryEntry) : Prop :=
  entry.value = sortValue block ∧ entry.timestamp ≠ [] ∧ entry.isValid = true ∧
    blockTimestampText block = some entry.timestamp ∧ entry.hasOffset = hasOffset entry.timestamp

theorem entriesFrom_plain {plain : List Line} (h : ∀ line ∈ plain, isBullet line = false)
    (index : Nat) (rest : List Line) :
    entriesFrom index (plain ++ rest) = entriesFrom (index + plain.length) rest := by
  induction plain generalizing index with
  | nil => rfl
  | cons line plain ih =>
    have hline : bulletPattern line = none := by
      have := h line (by simp)
      rwa [isBullet, Option.isSome_eq_false_iff, Option.isNone_iff_eq_none] at this
    rw [List.cons_append, entriesFrom, hline]
    show entriesFrom (index + 1) (plain ++ rest) = _
    rw [ih (fun l hl => h l (by simp [hl])), List.length_cons]
    congr 1
    omega

theorem entryOf_block {first : Line} {rest : List Line} {body : List Char} {value : Int}
    (hbody : bulletPattern first = some body)
    (hvalue : blockTimestamp (first :: rest) = .ok (some value)) (index : Nat) :
    ∃ entry, entryOf index body = .ok entry ∧ EntryOf (first :: rest) entry := by
  have htext : blockTimestampText (first :: rest) = parseTimestamp body := by
    rw [blockTimestampText, hbody]
    rfl
  have hsort := sortValue_of_stamped hvalue
  rw [blockTimestamp, htext] at hvalue
  cases hstamp : parseTimestamp body with
  | none =>
    rw [hstamp] at hvalue
    cases hvalue
  | some timestamp =>
    rw [hstamp] at hvalue
    cases hdate : datetimeValue timestamp with
    | error e =>
      cases e <;> simp [hdate] at hvalue
    | ok instant =>
      have hinstant : instant = value := by simpa [hdate] using hvalue
      refine ⟨⟨index, timestamp, instant, true, hasOffset timestamp⟩, ?_, ?_⟩
      · simp [entryOf, hstamp, hdate]
      · refine ⟨?_, parseTimestamp_ne_nil hstamp, rfl, ?_, rfl⟩
        · rw [hsort, ← hinstant]
        · rw [htext, hstamp]

/-- Of stamped blocks the checker reads one entry each. -/
theorem entriesFrom_blocks {blocks : List (List Line)} (hblocks : ∀ block ∈ blocks, IsBlock block)
    (hstamped : ∀ block ∈ blocks, Stamped block) (index : Nat) :
    ∃ entries, entriesFrom index blocks.flatten = .ok entries ∧
      List.Forall₂ EntryOf blocks entries := by
  induction blocks generalizing index with
  | nil => exact ⟨[], rfl, .nil⟩
  | cons block blocks ih =>
    cases block with
    | nil => exact (hblocks [] (by simp)).elim
    | cons first rest =>
      obtain ⟨hfirst, hrest⟩ := hblocks (first :: rest) (by simp)
      obtain ⟨body, hbody⟩ := Option.isSome_iff_exists.mp hfirst
      obtain ⟨value, hvalue⟩ := hstamped (first :: rest) (by simp)
      obtain ⟨entry, hentry, hof⟩ := entryOf_block hbody hvalue (index + 1)
      obtain ⟨entries, hentries, hall⟩ := ih (fun b hb => hblocks b (by simp [hb]))
        (fun b hb => hstamped b (by simp [hb])) (index + 1 + rest.length)
      refine ⟨entry :: entries, ?_, .cons hof hall⟩
      rw [List.flatten_cons, List.cons_append, entriesFrom, hbody]
      show (entryOf (index + 1) body >>= fun entry =>
        entriesFrom (index + 1) (rest ++ blocks.flatten) >>= fun entries =>
          pure (entry :: entries)) = _
      rw [hentry, entriesFrom_plain hrest, hentries]
      rfl

theorem entryFindings_code {entry : HistoryEntry} {relative : String}
    {previous : Option HistoryEntry} {touched : Bool}
    (h : ∀ p, previous = some p → entry.value ≤ p.value) :
    ∀ f ∈ entryFindings entry relative previous touched,
      f.code ≠ "update_history_not_newest_first" := by
  intro f hf
  unfold entryFindings at hf
  split at hf
  · rw [List.mem_singleton.mp hf]
    simp
  · split at hf
    · rw [List.mem_singleton.mp hf]
      simp
    · rcases List.mem_append.mp hf with hf | hf
      · split at hf
        · rw [List.mem_singleton.mp hf]
          simp [naiveFinding]
        · cases hf
      · cases previous with
        | none => cases hf
        | some p =>
          have hle := h p rfl
          simp only [if_neg (show ¬p.value < entry.value by omega)] at hf
          cases hf

/-- Values of one frame that only fall give no ordering finding. -/
theorem orderFindings_code {relative : String} {covers : Nat → Bool} {frame : Bool}
    {entries : List HistoryEntry} (hframe : ∀ entry ∈ entries, entry.hasOffset = frame)
    (hfall : entries.Pairwise fun a b => b.value ≤ a.value)
    {previous : Bool → Option HistoryEntry}
    (hprevious : ∀ p, previous frame = some p → ∀ entry ∈ entries, entry.value ≤ p.value) :
    ∀ f ∈ orderFindings relative covers previous entries,
      f.code ≠ "update_history_not_newest_first" := by
  induction entries generalizing previous with
  | nil =>
    intro f hf
    cases hf
  | cons entry entries ih =>
    rw [List.pairwise_cons] at hfall
    intro f hf
    rw [orderFindings, List.mem_append] at hf
    rcases hf with hf | hf
    · refine entryFindings_code (fun p hp => ?_) f hf
      rw [hframe entry (by simp)] at hp
      exact hprevious p hp entry (by simp)
    · refine ih (fun e he => hframe e (by simp [he])) hfall.2 ?_ f hf
      intro p hp e he
      split at hp
      · rw [hframe entry (by simp), Function.update_self, Option.some.injEq] at hp
        rw [← hp]
        exact hfall.1 e he
      · exact hprevious p hp e (by simp [he])

theorem values_of_entries {blocks : List (List Line)} {entries : List HistoryEntry}
    (h : List.Forall₂ EntryOf blocks entries) :
    entries.map HistoryEntry.value = blocks.map sortValue := by
  induction h with
  | nil => rfl
  | cons hof _ ih => rw [List.map_cons, List.map_cons, ih, hof.1]

/-- A frame that an entry is in is one that its block is in. -/
theorem frames_of_entries {blocks : List (List Line)} {entries : List HistoryEntry}
    (h : List.Forall₂ EntryOf blocks entries) {entry : HistoryEntry} (hentry : entry ∈ entries) :
    entry.hasOffset ∈ (blocks.filterMap blockTimestampText).map hasOffset := by
  induction h with
  | nil => cases hentry
  | @cons block first blocks entries hof _ ih =>
    obtain ⟨-, -, -, htext, hoffset⟩ := hof
    rw [List.filterMap_cons, htext]
    rcases List.mem_cons.mp hentry with rfl | hentry
    · rw [hoffset]
      exact List.mem_cons_self
    · exact List.mem_cons_of_mem _ (ih hentry)

theorem one_frame {blocks : List (List Line)} {entries : List HistoryEntry}
    (h : List.Forall₂ EntryOf blocks entries) (hmixes : ¬mixesTimestampFrames blocks = true) :
    ∃ frame, ∀ entry ∈ entries, entry.hasOffset = frame := by
  have hnot : ∀ entry ∈ entries, ∀ other ∈ entries, entry.hasOffset = true →
      other.hasOffset = true := by
    intro entry hentry other hother htrue
    by_contra hfalse
    have hfirst := frames_of_entries h hentry
    have hsecond := frames_of_entries h hother
    rw [htrue] at hfirst
    rw [Bool.not_eq_true] at hfalse
    rw [hfalse] at hsecond
    apply hmixes
    simp only [mixesTimestampFrames, Bool.and_eq_true, List.contains_iff_mem]
    exact ⟨hfirst, hsecond⟩
  by_cases hsome : ∃ entry ∈ entries, entry.hasOffset = true
  · obtain ⟨entry, hentry, htrue⟩ := hsome
    exact ⟨true, fun other hother => hnot entry hentry other hother htrue⟩
  · refine ⟨false, fun entry hentry => ?_⟩
    by_contra hne
    exact hsome ⟨entry, hentry, by simpa using hne⟩

theorem sectionFindings_newestFirst {document : List Line} {bounds : Nat × Nat}
    (hskip : ¬Skipped (slice document bounds.1 bounds.2))
    (hover : ¬Overflows (slice document bounds.1 bounds.2))
    (hnewest : NewestFirst (slice document bounds.1 bounds.2)) (relative : String)
    (covers : Nat → Bool) :
    ∃ findings, sectionFindings relative covers document bounds = .ok findings ∧
      ∀ f ∈ findings, f.code ≠ "update_history_not_newest_first" := by
  have hparsed := parsed_parseBulletBlocks (slice document bounds.1 bounds.2)
  obtain ⟨entries, hentries, hall⟩ := entriesFrom_blocks hparsed.blocks
    (stamped_of_not_skipped hskip hover)
    (bounds.1 + (parseBulletBlocks (slice document bounds.1 bounds.2)).1.length)
  have hread : parseEntries document bounds.1 bounds.2 = .ok entries := by
    rw [parseEntries, hparsed.whole, entriesFrom_plain hparsed.front, hentries]
  refine ⟨orderFindings relative covers (fun _ => none) entries, ?_, ?_⟩
  · rw [sectionFindings, hread]
    rfl
  · obtain ⟨frame, hframe⟩ := one_frame hall fun hmixes => hskip (.inr hmixes)
    refine orderFindings_code hframe ?_ fun p hp => by cases hp
    rw [← List.pairwise_map (R := fun a b => b ≤ a) (f := HistoryEntry.value),
      values_of_entries hall, List.pairwise_map]
    exact hnewest

end AgentsRemember.History
