import AgentsRemember.History.Blocks

/-!
# History — Sorted

What the fixer does to a document, and when it is what it promises: the sections
stand where they stood, each with its own blocks, newest first, all else is as it
was byte for byte, and neither a second run nor the checker finds anything.
-/

namespace AgentsRemember.History

/-! ## Slices -/

section slices
variable {α : Type} {xs ys : List α} {start stop : Nat}

theorem getElem?_slice (k : Nat) :
    (slice xs start stop)[k]? = if k < stop - start then xs[start + k]? else none := by
  rw [slice, List.getElem?_take, List.getElem?_drop]

theorem slice_congr (h : ∀ j, start ≤ j → j < stop → xs[j]? = ys[j]?) :
    slice xs start stop = slice ys start stop := by
  apply List.ext_getElem?
  intro k
  rw [getElem?_slice, getElem?_slice]
  split
  · exact h _ (by omega) (by omega)
  · rfl

theorem length_slice (h : stop ≤ xs.length) : (slice xs start stop).length = stop - start := by
  rw [slice, List.length_take, List.length_drop]
  omega

/-- A part is taken out and another of its length put in. -/
theorem getElem?_splice {piece : List α} (hle : start ≤ stop) (hstop : stop ≤ xs.length)
    (hpiece : piece.length = stop - start) (j : Nat) :
    (xs.take start ++ piece ++ xs.drop stop)[j]? =
      if start ≤ j ∧ j < stop then piece[j - start]? else xs[j]? := by
  have hfront : (xs.take start).length = start := by
    rw [List.length_take]
    omega
  rcases Nat.lt_or_ge j start with hj | hj
  · rw [if_neg (by omega), List.append_assoc, List.getElem?_append_left (by omega),
      List.getElem?_take_of_lt hj]
  · rcases Nat.lt_or_ge j stop with hj' | hj'
    · rw [if_pos ⟨hj, hj'⟩, List.append_assoc, List.getElem?_append_right (by omega), hfront,
        List.getElem?_append_left (by omega)]
    · rw [if_neg (by omega), List.getElem?_append_right (by
          rw [List.length_append]
          omega), List.length_append, hfront, hpiece, List.getElem?_drop]
      congr 1
      omega

end slices

/-! ## Sections -/

theorem opensHistory_ends {line : Line} (h : opensHistory line = true) :
    endsSection line = true := by
  unfold opensHistory at h
  unfold endsSection
  cases hheading : headingPattern line with
  | none =>
    rw [hheading] at h
    cases h
  | some heading =>
    rw [hheading] at h
    simp only [Option.any_some, decide_eq_true_eq] at h ⊢
    omega

theorem mem_sections {lines : List Line} {bounds : Nat × Nat}
    (h : bounds ∈ updateHistorySections lines) :
    ∃ index line, lines[index]? = some line ∧ opensHistory line = true ∧
      bounds = (index + 1, index + 1 + (lines.drop (index + 1)).findIdx endsSection) := by
  obtain ⟨⟨line, index⟩, hentry, hopens⟩ := List.mem_filterMap.mp h
  rw [List.mem_zipIdx_iff_getElem?] at hentry
  dsimp only at hopens
  split at hopens
  · rename_i hline
    exact ⟨index, line, hentry, hline, (Option.some.inj hopens).symm⟩
  · cases hopens

/-- A section is inside of the document, and no heading inside of it ends one. -/
theorem section_bounds {lines : List Line} {bounds : Nat × Nat}
    (h : bounds ∈ updateHistorySections lines) :
    bounds.1 ≤ bounds.2 ∧ bounds.2 ≤ lines.length ∧
      ∀ j line, bounds.1 ≤ j → j < bounds.2 → lines[j]? = some line → endsSection line = false := by
  obtain ⟨index, heading, hheading, -, rfl⟩ := mem_sections h
  have hindex : index < lines.length := (List.getElem?_eq_some_iff.mp hheading).1
  have hfind : (lines.drop (index + 1)).findIdx endsSection ≤ (lines.drop (index + 1)).length :=
    List.findIdx_le_length
  rw [List.length_drop] at hfind
  refine ⟨by simp, ?_, ?_⟩
  · show index + 1 + _ ≤ _
    omega
  · intro j line hstart hstop hline
    have hbefore : j - (index + 1) < (lines.drop (index + 1)).findIdx endsSection := by
      simp only at hstart hstop
      omega
    have hnot := List.not_of_lt_findIdx hbefore
    have hget : (lines.drop (index + 1))[j - (index + 1)]? = some line := by
      rw [List.getElem?_drop, ← hline]
      simp only at hstart
      congr 1
      omega
    rw [List.getElem?_eq_some_iff] at hget
    obtain ⟨hlt, hget⟩ := hget
    rw [hget] at hnot
    exact hnot

/-- One section ends in front of the heading of the next. -/
theorem sections_pairwise (lines : List Line) :
    (updateHistorySections lines).Pairwise fun a b => a.2 < b.1 := by
  unfold updateHistorySections
  rw [List.pairwise_filterMap]
  refine (Canonical.zipIdx_pairwise lines 0).imp_of_mem ?_
  rintro ⟨line, i⟩ ⟨line', j⟩ - hb hlt bounds hbounds bounds' hbounds'
  rw [List.mem_zipIdx_iff_getElem?] at hb
  dsimp only at hbounds hbounds'
  split at hbounds
  · split at hbounds'
    · rename_i hopens
      cases hbounds
      cases hbounds'
      -- the next heading ends the section when nothing in front of it does
      have hends : endsSection line' = true := opensHistory_ends hopens
      have hget : (lines.drop (i + 1))[j - (i + 1)]? = some line' := by
        rw [List.getElem?_drop, ← hb]
        simp only at hlt
        congr 1
        omega
      obtain ⟨hlength, hget⟩ := List.getElem?_eq_some_iff.mp hget
      have hfind : (lines.drop (i + 1)).findIdx endsSection ≤ j - (i + 1) := by
        by_contra hcon
        have hnot := List.not_of_lt_findIdx (Nat.lt_of_not_le hcon)
        rw [hget, hends] at hnot
        cases hnot
      simp only at hlt ⊢
      omega
    · cases hbounds'
  · cases hbounds

/-- A place is in one section only. -/
theorem sections_disjoint {lines : List Line} {b c : Nat × Nat}
    (hb : b ∈ updateHistorySections lines) (hc : c ∈ updateHistorySections lines) {j : Nat}
    (hjb : b.1 ≤ j ∧ j < b.2) (hjc : c.1 ≤ j ∧ j < c.2) : b = c := by
  have hpairwise : (updateHistorySections lines).Pairwise
      fun x y => x.1 ≤ j ∧ j < x.2 → y.1 ≤ j ∧ j < y.2 → x = y := by
    refine (sections_pairwise lines).imp ?_
    intro x y hxy hx hy
    omega
  have hflip : (updateHistorySections lines).Pairwise
      fun x y => y.1 ≤ j ∧ j < y.2 → x.1 ≤ j ∧ j < x.2 → y = x :=
    hpairwise.imp fun hxy hy hx => (hxy hx hy).symm
  exact hpairwise.forall_of_forall_of_flip (fun _ _ _ _ => rfl) hflip hb hc hjb hjc

/-- Where the sections stand is told by the headings. -/
theorem sections_congr {lines lines' : List Line}
    (hopens : lines.map opensHistory = lines'.map opensHistory)
    (hends : lines.map endsSection = lines'.map endsSection) :
    updateHistorySections lines = updateHistorySections lines' := by
  have hflags : ∀ ls : List Line, updateHistorySections ls =
      (ls.map opensHistory).zipIdx.filterMap fun (opens, index) =>
        if opens then
          some (index + 1, index + 1 + ((ls.map endsSection).drop (index + 1)).findIdx id)
        else none := by
    intro ls
    rw [updateHistorySections, List.zipIdx_map, List.filterMap_map]
    congr 1
    funext entry
    simp only [Function.comp, Prod.map, ← List.map_drop, List.findIdx_map, id]
    rfl
  rw [hflags, hflags, hopens, hends]

/-! ## Splicing -/

/-- Every section is sorted where it stood, and the other lines are where they were. -/
structure Spliced (lines updated : List Line) (sections : List (Nat × Nat)) : Prop where
  length : updated.length = lines.length
  inside : ∀ b ∈ sections, slice updated b.1 b.2 = sortedLines (slice lines b.1 b.2)
  outside : ∀ j, (∀ b ∈ sections, ¬(b.1 ≤ j ∧ j < b.2)) → updated[j]? = lines[j]?

/-- A section in front of those that are done is spliced into what they left. -/
theorem Spliced.splice {lines updated : List Line} {sections : List (Nat × Nat)}
    (h : Spliced lines updated sections) {b : Nat × Nat} (hle : b.1 ≤ b.2)
    (hstop : b.2 ≤ lines.length) (hover : ¬Overflows (slice lines b.1 b.2))
    (hfront : ∀ c ∈ sections, b.2 < c.1) :
    slice updated b.1 b.2 = slice lines b.1 b.2 ∧
      Spliced lines (updated.take b.1 ++ sortedLines (slice lines b.1 b.2) ++ updated.drop b.2)
        (b :: sections) := by
  have hsame : ∀ j, j < b.2 → updated[j]? = lines[j]? := by
    intro j hj
    apply h.outside
    intro c hc hin
    have := hfront c hc
    omega
  have hpiece : (sortedLines (slice lines b.1 b.2)).length = b.2 - b.1 := by
    rw [(sortedLines_perm hover).length_eq, length_slice hstop]
  have hget : ∀ j, (updated.take b.1 ++ sortedLines (slice lines b.1 b.2) ++
      updated.drop b.2)[j]? = if b.1 ≤ j ∧ j < b.2 then
        (sortedLines (slice lines b.1 b.2))[j - b.1]? else updated[j]? :=
    getElem?_splice hle (h.length ▸ hstop) hpiece
  refine ⟨slice_congr fun j _ hj => hsame j hj, ?_, ?_, ?_⟩
  · have hlength := h.length
    simp only [List.length_append, List.length_take, List.length_drop, hpiece]
    omega
  · intro c hc
    apply List.ext_getElem?
    intro k
    rcases List.mem_cons.mp hc with rfl | hc
    · rw [getElem?_slice]
      split
      · rw [hget, if_pos (by omega)]
        congr 1
        omega
      · rw [List.getElem?_eq_none (by omega)]
    · have hbehind := hfront c hc
      rw [← h.inside c hc, getElem?_slice, getElem?_slice]
      split
      · rw [hget, if_neg (by omega)]
      · rfl
  · intro j hj
    rw [hget, if_neg (hj b (by simp))]
    exact h.outside j fun c hc => hj c (by simp [hc])

/-- What the splicing of a list of sections comes to. -/
def Splicing (lines : List Line) (sections : List (Nat × Nat)) : Except TimeError Sorting → Prop
  | .ok sorting => (∀ b ∈ sections, ¬Overflows (slice lines b.1 b.2)) ∧
      Spliced lines sorting.updated sections ∧
      (sorting.changed = true ↔
        ∃ b ∈ sections, sortedLines (slice lines b.1 b.2) ≠ slice lines b.1 b.2)
  | .error _ => ∃ b ∈ sections, Overflows (slice lines b.1 b.2)

theorem spliceSection_eq {sorting : Sorting} {b : Nat × Nat} {lines sorted : List Line}
    {skipped : Bool} (hslice : slice sorting.updated b.1 b.2 = lines)
    (hsort : sortSection lines = .ok (sorted, skipped)) :
    spliceSection sorting b =
      if sorted = lines then .ok { sorting with skipped := sorting.skipped || skipped }
      else .ok ⟨sorting.updated.take b.1 ++ sorted ++ sorting.updated.drop b.2, true,
        sorting.skipped || skipped⟩ := by
  unfold spliceSection
  dsimp only
  rw [hslice, hsort]
  show (if sorted = lines then _ else _) = _
  split <;> rfl

theorem splicing_foldrM {lines : List Line} (sections : List (Nat × Nat))
    (hpairwise : sections.Pairwise fun a b => a.2 < b.1)
    (hbounds : ∀ b ∈ sections, b.1 ≤ b.2 ∧ b.2 ≤ lines.length) :
    Splicing lines sections
      (sections.foldrM (fun bounds sorting => spliceSection sorting bounds) { updated := lines }) := by
  induction sections with
  | nil => exact ⟨by simp, ⟨rfl, by simp, fun _ _ => rfl⟩, by simp⟩
  | cons b sections ih =>
    rw [List.pairwise_cons] at hpairwise
    have htail := ih hpairwise.2 fun c hc => hbounds c (by simp [hc])
    rw [List.foldrM_cons]
    cases hrun : sections.foldrM (fun bounds sorting => spliceSection sorting bounds)
        { updated := lines } with
    | error e =>
      rw [hrun] at htail
      obtain ⟨c, hc, hover⟩ := htail
      exact ⟨c, by simp [hc], hover⟩
    | ok sorting =>
      rw [hrun] at htail
      obtain ⟨hovers, hspliced, hchanged⟩ := htail
      obtain ⟨hle, hstop⟩ := hbounds b (by simp)
      show Splicing lines (b :: sections) (spliceSection sorting b)
      -- the sections behind are spliced already, and this one is in front of them
      have hslice : slice sorting.updated b.1 b.2 = slice lines b.1 b.2 := by
        apply slice_congr
        intro j _ hj
        apply hspliced.outside
        intro c hc hin
        have := hpairwise.1 c hc
        omega
      by_cases hover : Overflows (slice lines b.1 b.2)
      · have herror : spliceSection sorting b = .error .overflow := by
          rcases sortSection_spec (slice lines b.1 b.2) with ⟨hsort, -⟩ | ⟨-, -, hnot⟩ | ⟨-, -, hnot, -⟩
          · rw [spliceSection, hslice, hsort]
            rfl
          · exact absurd hover hnot
          · exact absurd hover hnot
        rw [herror]
        exact ⟨b, by simp, hover⟩
      · obtain ⟨skipped, hsort⟩ := sortSection_eq_ok hover
        obtain ⟨-, hnext⟩ := hspliced.splice hle hstop hover hpairwise.1
        have hall : ∀ c ∈ b :: sections, ¬Overflows (slice lines c.1 c.2) := by
          intro c hc
          rcases List.mem_cons.mp hc with rfl | hc
          · exact hover
          · exact hovers c hc
        rw [spliceSection_eq hslice hsort]
        by_cases hsame : sortedLines (slice lines b.1 b.2) = slice lines b.1 b.2
        · rw [if_pos hsame]
          refine ⟨hall, ⟨hspliced.length, ?_, ?_⟩, ?_⟩
          · intro c hc
            rcases List.mem_cons.mp hc with rfl | hc
            · rw [hsame]
              exact hslice
            · exact hspliced.inside c hc
          · exact fun j hj => hspliced.outside j fun c hc => hj c (by simp [hc])
          · simpa [hsame] using hchanged
        · rw [if_neg hsame]
          exact ⟨hall, hnext, by simp [hsame]⟩

theorem sortUpdateHistorySections_spec (lines : List Line) :
    Splicing lines (updateHistorySections lines) (sortUpdateHistorySections lines) := by
  unfold sortUpdateHistorySections
  rw [List.foldlM_reverse]
  refine splicing_foldrM _ (sections_pairwise lines) fun b hb => ?_
  exact ⟨(section_bounds hb).1, (section_bounds hb).2.1⟩

/-! ## The document behind the fixer -/

section updated
variable {lines updated : List Line}
  (h : Spliced lines updated (updateHistorySections lines))
  (hover : ∀ b ∈ updateHistorySections lines, ¬Overflows (slice lines b.1 b.2))
include h hover

/-- Inside of a section stands a line of that section, elsewhere the line that was there. -/
theorem Spliced.line {j : Nat} {line : Line} (hline : updated[j]? = some line) :
    lines[j]? = some line ∨ ∃ b ∈ updateHistorySections lines, b.1 ≤ j ∧ j < b.2 ∧
      line ∈ slice lines b.1 b.2 := by
  by_cases hin : ∃ b ∈ updateHistorySections lines, b.1 ≤ j ∧ j < b.2
  · obtain ⟨b, hb, hstart, hstop⟩ := hin
    refine .inr ⟨b, hb, hstart, hstop, ?_⟩
    rw [← (sortedLines_perm (hover b hb)).mem_iff, ← h.inside b hb]
    apply List.mem_of_getElem? (i := j - b.1)
    rw [getElem?_slice, if_pos (by omega), ← hline]
    congr 1
    omega
  · left
    rw [← h.outside j fun b hb hj => hin ⟨b, hb, hj⟩]
    exact hline

theorem Spliced.mem {line : Line} (hline : line ∈ updated) : line ∈ lines := by
  obtain ⟨j, hj⟩ := List.getElem?_of_mem hline
  rcases h.line hover hj with hsame | ⟨b, -, -, -, hin⟩
  · exact List.mem_of_getElem? hsame
  · exact List.mem_of_mem_drop (List.mem_of_mem_take hin)

/-- No heading moves, so that the sections stand where they stood. -/
theorem Spliced.sections : updateHistorySections updated = updateHistorySections lines := by
  have hquiet : ∀ b ∈ updateHistorySections lines, ∀ line ∈ slice lines b.1 b.2,
      endsSection line = false := by
    intro b hb line hline
    obtain ⟨k, hk⟩ := List.getElem?_of_mem hline
    rw [getElem?_slice] at hk
    split at hk
    · exact (section_bounds hb).2.2 (b.1 + k) line (by omega) (by omega) hk
    · cases hk
  have hflag : ∀ flag : Line → Bool, (∀ line, endsSection line = false → flag line = false) →
      updated.map flag = lines.map flag := by
    intro flag hflag
    apply List.ext_getElem?
    intro j
    rw [List.getElem?_map, List.getElem?_map]
    rcases Nat.lt_or_ge j lines.length with hj | hj
    · obtain ⟨old, hold⟩ : ∃ old, lines[j]? = some old := ⟨_, List.getElem?_eq_getElem hj⟩
      obtain ⟨new, hnew⟩ : ∃ new, updated[j]? = some new :=
        ⟨_, List.getElem?_eq_getElem (h.length.symm ▸ hj)⟩
      rw [hold, hnew]
      rcases h.line hover hnew with hsame | ⟨b, hb, hstart, hstop, hin⟩
      · rw [hold] at hsame
        rw [Option.some.inj hsame]
      · have hin' : old ∈ slice lines b.1 b.2 := by
          apply List.mem_of_getElem? (i := j - b.1)
          rw [getElem?_slice, if_pos (by omega), ← hold]
          congr 1
          omega
        rw [Option.map_some, Option.map_some, hflag _ (hquiet b hb _ hin),
          hflag _ (hquiet b hb _ hin')]
    · rw [List.getElem?_eq_none hj, List.getElem?_eq_none (h.length.symm ▸ hj)]
  apply sections_congr
  · apply hflag
    intro line hline
    by_contra hopens
    rw [opensHistory_ends (by simpa using hopens)] at hline
    cases hline
  · exact hflag endsSection fun _ hline => hline

/-- A second pass over the sections leaves each as it is. -/
theorem Spliced.again :
    ∃ sorting, sortUpdateHistorySections updated = .ok sorting ∧ sorting.changed = false := by
  have hspec := sortUpdateHistorySections_spec updated
  rw [h.sections hover] at hspec
  cases hrun : sortUpdateHistorySections updated with
  | error e =>
    rw [hrun] at hspec
    obtain ⟨b, hb, hoverflow⟩ := hspec
    rw [h.inside b hb] at hoverflow
    exact absurd hoverflow (not_overflows_sortedLines (hover b hb))
  | ok sorting =>
    rw [hrun] at hspec
    refine ⟨sorting, rfl, ?_⟩
    by_contra hchanged
    obtain ⟨b, hb, hne⟩ := hspec.2.2.mp (by simpa using hchanged)
    rw [h.inside b hb] at hne
    exact hne (sortedLines_sortedLines (hover b hb))

end updated

/-! ## What is promised -/

/-- The lines of a document as it is read. -/
def linesOf (content : List Char) : List Line :=
  Lines.splitlines (Lines.universalNewlines content)

/-- The sections of a document that are skipped, or those that are not. -/
def SkippedAt (content : List Char) (b : Nat × Nat) : Prop := Skipped (slice (linesOf content) b.1 b.2)

/-- What fixing a document comes to. -/
structure SafelySorted (content result : List Char) : Prop where
  sections : updateHistorySections (linesOf result) = updateHistorySections (linesOf content)
  outside : ∀ j, (∀ b ∈ updateHistorySections (linesOf content), ¬(b.1 ≤ j ∧ j < b.2)) →
    (Lines.splitEnds result)[j]? = (Lines.splitEnds content)[j]?
  kept : ∀ b ∈ updateHistorySections (linesOf content),
    (parseBulletBlocks (slice (linesOf result) b.1 b.2)).1 =
        (parseBulletBlocks (slice (linesOf content) b.1 b.2)).1 ∧
      (parseBulletBlocks (slice (linesOf result) b.1 b.2)).2.Perm
        (parseBulletBlocks (slice (linesOf content) b.1 b.2)).2
  newest : ∀ b ∈ updateHistorySections (linesOf content), ¬SkippedAt content b →
    NewestFirst (slice (linesOf result) b.1 b.2) ∧
      ∀ t, (parseBulletBlocks (slice (linesOf result) b.1 b.2)).2.filter (sortValue · = t) =
        (parseBulletBlocks (slice (linesOf content) b.1 b.2)).2.filter (sortValue · = t)
  untouched : ∀ b ∈ updateHistorySections (linesOf content), SkippedAt content b →
    ∀ j, b.1 ≤ j → j < b.2 → (Lines.splitEnds result)[j]? = (Lines.splitEnds content)[j]?
  again : ∃ skipped, fixFile result false = .ok ⟨result, false, skipped⟩
  checked : ∀ relative covers, ∀ b ∈ updateHistorySections (linesOf result), ¬SkippedAt result b →
    ∃ findings, sectionFindings relative covers (linesOf result) b = .ok findings ∧
      ∀ f ∈ findings, f.code ≠ "update_history_not_newest_first"

/-- The last of the oldest blocks ends in an empty line; so does a section without blocks. -/
def EndsBlank (lines : List Line) : Prop :=
  ((parseBulletBlocks lines).2 = [] ∧ lines.getLast? = some []) ∨
    ∃ front block back, (parseBulletBlocks lines).2 = front ++ block :: back ∧
      (∀ other ∈ front, sortValue block ≤ sortValue other) ∧
      (∀ other ∈ back, sortValue block < sortValue other) ∧ block.getLast? = some []

/-- When a document is fixed as it should be. -/
structure Fixable (content : List Char) : Prop where
  inRange : ∀ b ∈ updateHistorySections (linesOf content),
    ¬Overflows (slice (linesOf content) b.1 b.2)
  ends : (∃ b ∈ updateHistorySections (linesOf content),
      ¬SkippedAt content b ∧ ¬NewestFirst (slice (linesOf content) b.1 b.2)) →
    (∀ j line ending, (Lines.splitEnds content)[j]? = some (line, ending) →
      (∀ b ∈ updateHistorySections (linesOf content), ¬SkippedAt content b →
        ¬(b.1 ≤ j ∧ j < b.2)) → ending = [] ∨ ending = ['\n']) ∧
    ((Lines.universalNewlines content).getLast? ≠ some '\n' →
      ∀ b ∈ updateHistorySections (linesOf content), ¬SkippedAt content b →
        b.2 = (linesOf content).length → ¬EndsBlank (slice (linesOf content) b.1 b.2))

theorem linesOf_eq (content : List Char) : linesOf content = Lines.splitlines content :=
  Lines.splitlines_universalNewlines content

/-- Which line a sorted section ends in is told by its oldest block. -/
theorem endsBlank_iff {lines : List Line} (hskip : ¬Skipped lines) (hover : ¬Overflows lines) :
    EndsBlank lines ↔ (sortedLines lines).getLast? = some [] := by
  have hparsed := parsed_sortedLines hskip hover
  by_cases hnil : (parseBulletBlocks lines).2 = []
  · have hsame : sortedLines lines = lines := by
      rw [hparsed.whole]
      conv_rhs => rw [(parsed_parseBulletBlocks lines).whole]
      rw [hnil]
      simp [Canonical.descending, Canonical.sorted]
    rw [hsame]
    constructor
    · rintro (⟨-, hlast⟩ | ⟨front, block, back, hblocks, -⟩)
      · exact hlast
      · rw [hnil] at hblocks
        simp at hblocks
    · exact fun hlast => .inl ⟨hnil, hlast⟩
  · -- the last line is that of the block that sorting puts last
    have hlast : ∀ front block back, (parseBulletBlocks lines).2 = front ++ block :: back →
        (∀ other ∈ front, sortValue block ≤ sortValue other) →
        (∀ other ∈ back, sortValue block < sortValue other) →
        (sortedLines lines).getLast? = block.getLast? := by
      intro front block back hblocks hfront hback
      have hlastBlock := Canonical.descending_getLast? hfront hback
      rw [← hblocks] at hlastBlock
      obtain ⟨init, hinit⟩ := List.getLast?_eq_some_iff.mp hlastBlock
      have hne : block ≠ [] := by
        intro hempty
        have hblock : IsBlock block := (parsed_parseBulletBlocks lines).blocks block (by simp [hblocks])
        rw [hempty] at hblock
        exact hblock
      rw [hparsed.whole, hinit, List.flatten_append, List.flatten_singleton, ← List.append_assoc,
        List.getLast?_append_of_ne_nil _ hne]
    constructor
    · rintro (⟨hempty, -⟩ | ⟨front, block, back, hblocks, hfront, hback, hblank⟩)
      · exact absurd hempty hnil
      · rw [hlast front block back hblocks hfront hback, hblank]
    · intro hblank
      obtain ⟨front, block, back, hblocks, hfront, hback⟩ :
          ∃ front block back, (parseBulletBlocks lines).2 = front ++ block :: back ∧
            (∀ other ∈ front, sortValue block ≤ sortValue other) ∧
            ∀ other ∈ back, sortValue block < sortValue other := Canonical.exists_last_least hnil
      refine .inr ⟨front, block, back, hblocks, hfront, hback, ?_⟩
      rw [← hlast front block back hblocks hfront hback, hblank]

/-- What fixing does: it stops, leaves the text, or writes the sorted lines. -/
theorem fixFile_spec (content : List Char) :
    ((∃ e, fixFile content false = .error e) ∧ ∃ b ∈ updateHistorySections (linesOf content),
      Overflows (slice (linesOf content) b.1 b.2)) ∨
    ∃ updated, (∀ b ∈ updateHistorySections (linesOf content),
        ¬Overflows (slice (linesOf content) b.1 b.2)) ∧
      Spliced (linesOf content) updated (updateHistorySections (linesOf content)) ∧
      ((∃ b ∈ updateHistorySections (linesOf content), ¬SkippedAt content b ∧
          ¬NewestFirst (slice (linesOf content) b.1 b.2)) ∧
        (∃ skipped, fixFile content false = .ok ⟨Lines.written updated
          ((Lines.universalNewlines content).getLast? = some '\n'), true, skipped⟩) ∨
      ¬(∃ b ∈ updateHistorySections (linesOf content), ¬SkippedAt content b ∧
          ¬NewestFirst (slice (linesOf content) b.1 b.2)) ∧
        ∃ skipped, fixFile content false = .ok ⟨content, false, skipped⟩) := by
  have hspec := sortUpdateHistorySections_spec (linesOf content)
  cases hrun : sortUpdateHistorySections (linesOf content) with
  | error e =>
    rw [hrun] at hspec
    refine .inl ⟨⟨e, ?_⟩, hspec⟩
    show (sortUpdateHistorySections (linesOf content) >>= _) = _
    rw [hrun]
    rfl
  | ok sorting =>
    rw [hrun] at hspec
    obtain ⟨hover, hspliced, hchanged⟩ := hspec
    refine .inr ⟨sorting.updated, hover, hspliced, ?_⟩
    have hmoved : (∃ b ∈ updateHistorySections (linesOf content), ¬SkippedAt content b ∧
        ¬NewestFirst (slice (linesOf content) b.1 b.2)) ↔ sorting.changed = true := by
      rw [hchanged]
      constructor
      · rintro ⟨b, hb, hskip, hnewest⟩
        exact ⟨b, hb, fun hsame => hnewest ((sortedLines_eq_iff hskip (hover b hb)).mp hsame)⟩
      · rintro ⟨b, hb, hne⟩
        have hskip : ¬SkippedAt content b := fun hskip => hne (sortedLines_of_skipped hskip)
        exact ⟨b, hb, hskip, fun hnewest => hne ((sortedLines_eq_iff hskip (hover b hb)).mpr hnewest)⟩
    have hfix : fixFile content false = .ok ⟨if sorting.changed = true ∧ false = false then
        Lines.written sorting.updated ((Lines.universalNewlines content).getLast? = some '\n')
        else content, sorting.changed, sorting.skipped⟩ := by
      show (sortUpdateHistorySections (linesOf content) >>= _) = _
      rw [hrun]
      rfl
    cases hflag : sorting.changed with
    | true =>
      refine .inl ⟨hmoved.mpr hflag, sorting.skipped, ?_⟩
      rw [hfix, hflag]
      simp
    | false =>
      refine .inr ⟨fun hexists => ?_, sorting.skipped, ?_⟩
      · rw [hmoved.mp hexists] at hflag
        cases hflag
      · rw [hfix, hflag]
        simp

/-! ## The text that is written -/

section written
variable {content : List Char} {updated : List Line}
  (h : Spliced (linesOf content) updated (updateHistorySections (linesOf content)))
  (hover : ∀ b ∈ updateHistorySections (linesOf content),
    ¬Overflows (slice (linesOf content) b.1 b.2))
  (hne : linesOf content ≠ [])

include h hover in
theorem no_breaks : ∀ line ∈ updated, ∀ c ∈ line, Lines.isBreak c = false := by
  intro line hline c hc
  have hin := h.mem hover hline
  rw [linesOf_eq] at hin
  exact Lines.isBreak_of_mem_splitlines hin hc

include h hover in
theorem feeds_only {trailing : Bool} {c : Char} (hc : c ∈ Lines.written updated trailing)
    (hbreak : Lines.isBreak c = true) : c = '\n' := by
  rcases Lines.mem_written hc with ⟨line, hline, hin⟩ | hfeed
  · rw [no_breaks h hover line hline c hin] at hbreak
    cases hbreak
  · exact hfeed

include h hne in
theorem updated_ne_nil : updated ≠ [] := by
  intro hnil
  have hlength := h.length
  rw [hnil] at hlength
  exact hne (List.eq_nil_of_length_eq_zero hlength.symm)

include h hover hne in
theorem linesOf_written (trailing : Bool) :
    linesOf (Lines.written updated trailing) = Lines.kept updated trailing := by
  rw [linesOf_eq]
  exact Lines.splitlines_written (updated_ne_nil h hne) (no_breaks h hover) trailing

include h hover in
/-- The last line that is written is empty only where a sorted section ends so. -/
theorem last_line (hends : ∀ j line ending, (Lines.splitEnds content)[j]? = some (line, ending) →
      (∀ b ∈ updateHistorySections (linesOf content), ¬SkippedAt content b →
        ¬(b.1 ≤ j ∧ j < b.2)) → ending = [] ∨ ending = ['\n'])
    (hblank : ∀ b ∈ updateHistorySections (linesOf content), ¬SkippedAt content b →
      b.2 = (linesOf content).length → ¬EndsBlank (slice (linesOf content) b.1 b.2))
    (htrailing : (Lines.universalNewlines content).getLast? ≠ some '\n') :
    updated.getLast? ≠ some [] := by
  intro hlast
  rw [List.getLast?_eq_getElem?] at hlast
  have hpos : 0 < updated.length := by
    by_contra hzero
    rw [List.getElem?_eq_none (by omega)] at hlast
    cases hlast
  have hlength := h.length
  by_cases hin : ∃ b ∈ updateHistorySections (linesOf content), ¬SkippedAt content b ∧
      b.1 ≤ updated.length - 1 ∧ updated.length - 1 < b.2
  · obtain ⟨b, hb, hskip, hstart, hstop⟩ := hin
    have hend : b.2 = (linesOf content).length := by
      have := (section_bounds hb).2.1
      omega
    apply hblank b hb hskip hend
    rw [endsBlank_iff hskip (hover b hb), ← h.inside b hb, List.getLast?_eq_getElem?,
      length_slice (by omega), getElem?_slice, if_pos (by omega), ← hlast]
    congr 1
    omega
  · have hsame : (linesOf content)[updated.length - 1]? = some [] := by
      by_cases hsection : ∃ b ∈ updateHistorySections (linesOf content),
          b.1 ≤ updated.length - 1 ∧ updated.length - 1 < b.2
      · obtain ⟨b, hb, hstart, hstop⟩ := hsection
        have hskip : SkippedAt content b := by
          by_contra hskip
          exact hin ⟨b, hb, hskip, hstart, hstop⟩
        have hinside := h.inside b hb
        rw [sortedLines_of_skipped hskip] at hinside
        have hget := congrArg (fun ls : List Line => ls[updated.length - 1 - b.1]?) hinside
        simp only [getElem?_slice, if_pos (show updated.length - 1 - b.1 < b.2 - b.1 by omega),
          show b.1 + (updated.length - 1 - b.1) = updated.length - 1 by omega] at hget
        rw [← hget, hlast]
      · rw [← h.outside _ fun b hb hj => hsection ⟨b, hb, hj⟩, hlast]
    rw [linesOf_eq, ← Lines.map_fst_splitEnds, List.getElem?_map] at hsame
    obtain ⟨⟨line, ending⟩, hentry, rfl⟩ := Option.map_eq_some_iff.mp hsame
    have hplace := fun b hb hskip hj => hin ⟨b, hb, hskip, hj⟩
    have hlengths : (Lines.splitEnds content).length = updated.length := by
      rw [Lines.length_splitEnds, hlength, linesOf_eq]
    rcases hends _ _ _ hentry hplace with rfl | rfl
    · exact Lines.nonempty_of_mem_splitEnds (List.mem_of_getElem? hentry) rfl
    · apply htrailing
      rw [← hlengths, ← List.getLast?_eq_getElem?] at hentry
      rw [Lines.getLast?_universalNewlines, Lines.getLast?_splitEnds hentry]
      rfl

include h hover in
/-- A line that did not move and that ends in a line feed, or in nothing, is written as it was. -/
theorem same_place {trailing : Bool}
    (htrailing : trailing = true ↔ (Lines.universalNewlines content).getLast? = some '\n')
    (hlast : trailing = false → updated.getLast? ≠ some []) {j : Nat}
    (hsame : updated[j]? = (linesOf content)[j]?)
    (hends : ∀ line ending, (Lines.splitEnds content)[j]? = some (line, ending) →
      ending = [] ∨ ending = ['\n']) :
    (Lines.splitEnds (Lines.written updated trailing))[j]? = (Lines.splitEnds content)[j]? := by
  have hlengths : (Lines.splitEnds content).length = updated.length := by
    rw [Lines.length_splitEnds, h.length, linesOf_eq]
  have hlines : (linesOf content)[j]? = (Lines.splitEnds content)[j]?.map Prod.fst := by
    rw [linesOf_eq, ← Lines.map_fst_splitEnds, List.getElem?_map]
  cases hentry : (Lines.splitEnds content)[j]? with
  -- behind the end of both texts
  | none =>
    have hj : updated.length ≤ j := hlengths ▸ List.getElem?_eq_none_iff.mp hentry
    rw [List.getElem?_eq_none]
    rw [Lines.length_splitEnds, ← linesOf_eq]
    cases htext : linesOf content with
    | nil =>
      have hnil : updated = [] := by
        have hlength := h.length
        rw [htext] at hlength
        exact List.eq_nil_of_length_eq_zero hlength
      have hcontent : content = [] := by
        by_contra hne
        exact Lines.splitlines_ne_nil hne (by rw [← linesOf_eq, htext])
      have hflag : trailing = false := by
        rw [← Bool.not_eq_true, htrailing, hcontent]
        simp [Lines.universalNewlines]
      rw [hnil, hflag]
      exact Nat.zero_le j
    | cons first rest =>
      rw [linesOf_written h hover (by simp [htext]), Lines.kept]
      split
      · rw [List.length_dropLast]
        omega
      · exact hj
  | some entry =>
    obtain ⟨line, ending⟩ := entry
    rw [hentry, Option.map_some] at hlines
    have hwritten := Lines.splitEnds_written_getElem? (no_breaks h hover) hlast (hsame.trans hlines)
    rw [hwritten]
    have hend : j + 1 = updated.length → content.getLast? = (line ++ ending).getLast? := by
      intro hj
      apply Lines.getLast?_splitEnds
      rw [List.getLast?_eq_getElem?, hlengths, ← hj, ← hentry]
      rfl
    -- an entry without a line end is the last one, and the text then ends without one
    rcases hends line ending hentry with rfl | rfl
    · have hj : j + 1 = updated.length := by
        rw [← hlengths]
        exact Lines.eq_last_of_unterminated hentry
      have hflag : trailing = false := by
        rw [← Bool.not_eq_true, htrailing, Lines.getLast?_universalNewlines, hend hj,
          List.append_nil]
        intro hfeed
        obtain ⟨c, hc, hcn⟩ := Option.map_eq_some_iff.mp hfeed
        have hin : c ∈ line := List.mem_of_getLast? hc
        have hbreak : Lines.isBreak c = false := by
          have hline : line ∈ updated := List.mem_of_getElem? (hsame.trans hlines)
          exact no_breaks h hover line hline c hin
        split at hcn
        · rename_i hcr
          rw [hcr] at hbreak
          cases hbreak
        · rw [hcn] at hbreak
          cases hbreak
      rw [if_pos ⟨hj, hflag⟩]
    · rw [if_neg]
      rintro ⟨hj, hflag⟩
      rw [← Bool.not_eq_true, htrailing, Lines.getLast?_universalNewlines, hend hj] at hflag
      exact hflag (by simp)

end written

/-! ## When it is kept -/

/-- A document that the fixer leaves is as it was, and in order. -/
theorem safelySorted_unchanged {content : List Char}
    (hover : ∀ b ∈ updateHistorySections (linesOf content),
      ¬Overflows (slice (linesOf content) b.1 b.2))
    (hordered : ¬∃ b ∈ updateHistorySections (linesOf content), ¬SkippedAt content b ∧
      ¬NewestFirst (slice (linesOf content) b.1 b.2))
    (hfix : ∃ skipped, fixFile content false = .ok ⟨content, false, skipped⟩) :
    SafelySorted content content := by
  have hnewest : ∀ b ∈ updateHistorySections (linesOf content), ¬SkippedAt content b →
      NewestFirst (slice (linesOf content) b.1 b.2) := by
    intro b hb hskip
    by_contra hnot
    exact hordered ⟨b, hb, hskip, hnot⟩
  exact
    { sections := rfl
      outside := fun _ _ => rfl
      kept := fun _ _ => ⟨rfl, .refl _⟩
      newest := fun b hb hskip => ⟨hnewest b hb hskip, fun _ => rfl⟩
      untouched := fun _ _ _ _ _ _ => rfl
      again := hfix
      checked := fun relative covers b hb hskip =>
        sectionFindings_newestFirst hskip (hover b hb) (hnewest b hb hskip) relative covers }

/-- A document that the fixer writes keeps its promises when no line end is lost. -/
theorem safelySorted_written {content : List Char} {updated : List Line}
    (hover : ∀ b ∈ updateHistorySections (linesOf content),
      ¬Overflows (slice (linesOf content) b.1 b.2))
    (h : Spliced (linesOf content) updated (updateHistorySections (linesOf content)))
    (hmoved : ∃ b ∈ updateHistorySections (linesOf content), ¬SkippedAt content b ∧
      ¬NewestFirst (slice (linesOf content) b.1 b.2))
    (hfixable : Fixable content) :
    SafelySorted content (Lines.written updated
      ((Lines.universalNewlines content).getLast? = some '\n')) := by
  obtain ⟨hends, hblank⟩ := hfixable.ends hmoved
  have hne : linesOf content ≠ [] := by
    intro hnil
    obtain ⟨b, hb, -⟩ := hmoved
    rw [hnil] at hb
    cases hb
  generalize htrailing : decide ((Lines.universalNewlines content).getLast? = some '\n') = trailing
  have hflag : trailing = true ↔ (Lines.universalNewlines content).getLast? = some '\n' := by
    rw [← htrailing, decide_eq_true_eq]
  have hlast : trailing = false → updated.getLast? ≠ some [] := by
    intro hfalse
    have hnot : (Lines.universalNewlines content).getLast? ≠ some '\n' := by
      intro hfeed
      rw [hflag.mpr hfeed] at hfalse
      cases hfalse
    exact last_line h hover hends (hblank hnot) hnot
  -- everything below is about the lines that were spliced
  have hlines : linesOf (Lines.written updated trailing) = updated := by
    rw [linesOf_written h hover hne, Lines.kept, if_neg]
    rintro ⟨hfalse, hempty⟩
    exact hlast hfalse hempty
  constructor
  case sections => rw [hlines, h.sections hover]
  case outside =>
    intro j hj
    refine same_place h hover hflag hlast (h.outside j hj) fun line ending hentry => ?_
    exact hends j line ending hentry fun b hb _ => hj b hb
  case kept =>
    intro b hb
    rw [hlines, h.inside b hb]
    exact parse_sortedLines (hover b hb)
  case newest =>
    intro b hb hskip
    rw [hlines, h.inside b hb]
    refine ⟨newestFirst_sortedLines hskip (hover b hb), fun t => ?_⟩
    rw [(parsed_sortedLines hskip (hover b hb)).eq]
    exact Canonical.filter_descending _ t
  case untouched =>
    intro b hb hskip j hstart hstop
    refine same_place h hover hflag hlast ?_ fun line ending hentry => ?_
    · have hinside := h.inside b hb
      rw [sortedLines_of_skipped hskip] at hinside
      have hget := congrArg (fun ls : List Line => ls[j - b.1]?) hinside
      simpa only [getElem?_slice, if_pos (show j - b.1 < b.2 - b.1 by omega),
        show b.1 + (j - b.1) = j by omega] using hget
    · refine hends j line ending hentry fun c hc hnot hj => ?_
      rw [sections_disjoint hb hc ⟨hstart, hstop⟩ hj] at hskip
      exact hnot hskip
  case again =>
    obtain ⟨sorting, hsorting, hunchanged⟩ := h.again hover
    refine ⟨sorting.skipped, ?_⟩
    show (sortUpdateHistorySections (linesOf (Lines.written updated trailing)) >>= _) = _
    rw [hlines, hsorting]
    show Except.ok _ = _
    rw [hunchanged]
    simp
  case checked =>
    intro relative covers b hb hskip
    rw [hlines, h.sections hover] at hb
    rw [SkippedAt, hlines, h.inside b hb] at hskip
    have hskip' : ¬Skipped (slice (linesOf content) b.1 b.2) :=
      (skipped_sortedLines (hover b hb)).not.mp hskip
    rw [hlines]
    refine sectionFindings_newestFirst ?_ ?_ ?_ relative covers
    · rwa [h.inside b hb]
    · rw [h.inside b hb]
      exact not_overflows_sortedLines (hover b hb)
    · rw [h.inside b hb]
      exact newestFirst_sortedLines hskip' (hover b hb)

/-- A document whose fixing keeps every promise has no line end that would be lost. -/
theorem fixable_of_written {content : List Char} {updated : List Line}
    (hover : ∀ b ∈ updateHistorySections (linesOf content),
      ¬Overflows (slice (linesOf content) b.1 b.2))
    (h : Spliced (linesOf content) updated (updateHistorySections (linesOf content)))
    (hsafe : SafelySorted content (Lines.written updated
      ((Lines.universalNewlines content).getLast? = some '\n'))) :
    Fixable content := by
  refine ⟨hover, fun hmoved => ⟨?_, ?_⟩⟩
  · intro j line ending hentry hplace
    have hsame : (Lines.splitEnds (Lines.written updated
        ((Lines.universalNewlines content).getLast? = some '\n')))[j]? =
          (Lines.splitEnds content)[j]? := by
      by_cases hin : ∃ b ∈ updateHistorySections (linesOf content), b.1 ≤ j ∧ j < b.2
      · obtain ⟨b, hb, hstart, hstop⟩ := hin
        have hskip : SkippedAt content b := by
          by_contra hskip
          exact hplace b hb hskip ⟨hstart, hstop⟩
        exact hsafe.untouched b hb hskip j hstart hstop
      · exact hsafe.outside j fun b hb hj => hin ⟨b, hb, hj⟩
    rw [hentry] at hsame
    refine Lines.ending_of_feeds (fun c hc hbreak => ?_) (List.mem_of_getElem? hsame)
    exact feeds_only h hover hc hbreak
  · intro hnot b hb hskip hend hblank
    have hne : linesOf content ≠ [] := by
      intro hnil
      rw [hnil] at hb
      cases hb
    rw [endsBlank_iff hskip (hover b hb), ← h.inside b hb] at hblank
    have hlast : updated.getLast? = some [] := by
      rw [List.getLast?_eq_getElem?] at hblank ⊢
      have hlength := h.length
      rw [length_slice (by omega), getElem?_slice] at hblank
      split at hblank
      · rw [← hblank]
        congr 1
        omega
      · cases hblank
    -- the empty last line is lost, so the section would end behind the document
    have hlines := linesOf_written h hover hne
      (decide ((Lines.universalNewlines content).getLast? = some '\n'))
    rw [Lines.kept, if_pos ⟨by simpa using hnot, hlast⟩] at hlines
    have hin := hb
    rw [← hsafe.sections, hlines] at hin
    have hbound := (section_bounds hin).2.1
    have hlength := h.length
    have hpos : 0 < updated.length := by
      by_contra hzero
      have hnil : updated = [] := List.eq_nil_of_length_eq_zero (by omega)
      rw [hnil] at hlast
      cases hlast
    rw [List.length_dropLast] at hbound
    omega

/-- Fixing a document keeps its promises exactly where no line end is lost and no instant is out of
range. -/
theorem sorting_safe_iff (content : List Char) :
    (∃ fixed, fixFile content false = .ok fixed ∧ SafelySorted content fixed.text) ↔
      Fixable content := by
  rcases fixFile_spec content with ⟨⟨e, herror⟩, b, hb, hoverflow⟩ |
    ⟨updated, hover, hspliced, ⟨hmoved, skipped, hfix⟩ | ⟨hordered, hfix⟩⟩
  · constructor
    · rintro ⟨fixed, hfix, -⟩
      rw [herror] at hfix
      cases hfix
    · exact fun hfixable => absurd hoverflow (hfixable.inRange b hb)
  · constructor
    · rintro ⟨fixed, hfix', hsafe⟩
      rw [hfix] at hfix'
      cases hfix'
      exact fixable_of_written hover hspliced hsafe
    · exact fun hfixable => ⟨_, hfix, safelySorted_written hover hspliced hmoved hfixable⟩
  · constructor
    · exact fun _ => ⟨hover, fun hmoved => absurd hmoved hordered⟩
    · intro _
      obtain ⟨skipped, hsame⟩ := hfix
      exact ⟨_, hsame, safelySorted_unchanged hover hordered ⟨skipped, hsame⟩⟩

/-- An instant that no date is for, a form feed in front of the section, and a last bullet without
a line end whose place an empty line takes. -/
theorem sorting_unsafe :
    (¬∃ fixed, fixFile "## Update History\n- 0001-01-01T00:00+01:00 x\n".toList false = .ok fixed ∧
      SafelySorted "## Update History\n- 0001-01-01T00:00+01:00 x\n".toList fixed.text) ∧
    (¬∃ fixed, fixFile
        "a\x0cb\n## Update History\n- 2024-01-01T00:00 x\n- 2024-01-02T00:00 y\n".toList false =
          .ok fixed ∧
      SafelySorted
        "a\x0cb\n## Update History\n- 2024-01-01T00:00 x\n- 2024-01-02T00:00 y\n".toList
        fixed.text) ∧
    ¬∃ fixed, fixFile "## Update History\n- 2024-01-01T00:00 x\n\n- 2024-01-02T00:00 y".toList
        false = .ok fixed ∧
      SafelySorted "## Update History\n- 2024-01-01T00:00 x\n\n- 2024-01-02T00:00 y".toList
        fixed.text := by
  refine ⟨?_, ?_, ?_⟩
  · rintro ⟨fixed, hfix, -⟩
    have herror : (fixFile "## Update History\n- 0001-01-01T00:00+01:00 x\n".toList
        false).toOption = none := by decide +kernel
    rw [hfix] at herror
    cases herror
  · rintro ⟨fixed, hfix, hsafe⟩
    have htext : (fixFile
        "a\x0cb\n## Update History\n- 2024-01-01T00:00 x\n- 2024-01-02T00:00 y\n".toList
        false).toOption.map Fixed.text = some
          "a\nb\n## Update History\n- 2024-01-02T00:00 y\n- 2024-01-01T00:00 x\n".toList := by
      decide +kernel
    rw [hfix] at htext
    have hfirst := hsafe.outside 0 (by decide +kernel)
    rw [Option.some.inj htext] at hfirst
    exact absurd hfirst (by decide +kernel)
  · rintro ⟨fixed, hfix, hsafe⟩
    have htext : (fixFile "## Update History\n- 2024-01-01T00:00 x\n\n- 2024-01-02T00:00 y".toList
        false).toOption.map Fixed.text = some
          "## Update History\n- 2024-01-02T00:00 y\n- 2024-01-01T00:00 x\n".toList := by
      decide +kernel
    rw [hfix] at htext
    have hsections := hsafe.sections
    rw [Option.some.inj htext] at hsections
    exact absurd hsections (by decide +kernel)

end AgentsRemember.History
