import AgentsRemember.Citations.Checked
import AgentsRemember.Citations.Sightings
import AgentsRemember.Foundation.Keyed

/-!
# Citations — Ranges

A range that passes the checker's test of an anchor passes it when it is
widened. And what a walk finds lies in the file that it finds it in, as far as
the spans of the syntax trees do.
-/

namespace AgentsRemember.Citations

/-! ## Widening -/

theorem infix_range (lines : List (List Char)) {start stop low high : Nat} (hlow : low ≤ start)
    (hhigh : stop ≤ high) :
    (lines.take stop).drop (start - 1) <:+: (lines.take high).drop (low - 1) := by
  have hshort : (lines.take stop).drop (start - 1) <+: (lines.take high).drop (start - 1) :=
    (List.take_prefix_take_left hhigh).drop (start - 1)
  have hlate : (lines.take high).drop (start - 1) <:+ (lines.take high).drop (low - 1) :=
    List.drop_suffix_drop_left _ (by omega)
  exact hshort.isInfix.trans hlate.isInfix

/-- The lines that are left of a text are those that were put together, but for an empty
one at the end. -/
theorem mem_splitlines_infix {part lines : List (List Char)} (hne : part ≠ [])
    (hpart : part <:+: lines) (hplain : Plain lines) {line : List Char}
    (h : line ∈ Lines.splitlines (['\n'].intercalate part)) :
    line ∈ Lines.splitlines (['\n'].intercalate lines) := by
  rw [Lines.splitlines_intercalate (hplain.sublist hpart.sublist)] at h
  rw [Lines.splitlines_intercalate hplain]
  have hmem : line ∈ part := by
    split at h
    · exact List.dropLast_subset part h
    · exact h
  split
  · rename_i hlast
    obtain ⟨front, back, rfl⟩ := hpart
    by_cases hback : back = []
    · -- the part ends where the lines do
      rw [hback, List.append_nil, List.getLast?_append_of_ne_nil _ hne] at hlast
      rw [if_pos hlast] at h
      rw [hback, List.append_nil, List.dropLast_append_of_ne_nil hne]
      exact List.mem_append_right _ h
    · rw [List.dropLast_append_of_ne_nil hback]
      exact List.mem_append_left _ (List.mem_append_right _ hmem)
  · exact hpart.sublist.subset hmem

theorem occursIn_infix {anchor : Anchor} {part lines : List (List Char)} (hne : part ≠ [])
    (hpart : part <:+: lines) (hplain : Plain lines)
    (h : anchor.occursIn (['\n'].intercalate part) = true) :
    anchor.occursIn (['\n'].intercalate lines) = true := by
  obtain ⟨kind, text⟩ := anchor
  cases kind with
  | symbol => exact wholeIdentifier_infix hne hpart h
  | heading =>
    obtain ⟨line, hline, hstrip⟩ := List.any_eq_true.mp
      (show ((Lines.splitlines (['\n'].intercalate part)).any fun line =>
        Lines.strip line == text.toList) = true from h)
    exact List.any_eq_true.mpr ⟨line, mem_splitlines_infix hne hpart hplain hline, hstrip⟩
  | quote =>
    have hheld := (occursIn_quote (hplain.sublist hpart.sublist)).mp h
    exact (occursIn_quote hplain).mpr
      (hheld.trans (Words.infix_unwords (hpart.flatMap unmarked)))

/-- A wider range holds the anchor too. -/
theorem Holds.wider {anchor : Anchor} {lines : List (List Char)} {extent : Extent}
    (h : Holds anchor lines extent) (hplain : Plain lines) {low high : Nat}
    (hlow : low ≤ extent.start) (hhigh : extent.stop ≤ high) :
    anchor.occursIn (bodyOf lines low high) = true := by
  have hopened := h.opened
  have hordered := h.ordered
  have hinside := h.inside
  have hne : (lines.take extent.stop).drop (extent.start - 1) ≠ [] := by
    rw [ne_eq, List.drop_eq_nil_iff, List.length_take]
    omega
  exact occursIn_infix hne (infix_range lines hlow hhigh)
    (hplain.sublist ((List.drop_sublist _ _).trans (List.take_sublist _ _))) h.held

/-! ## Bounds -/

/-- A range of lines of a file. -/
structure InFile (lines : List (List Char)) (start stop : Nat) : Prop where
  opened : 1 ≤ start
  ordered : start ≤ stop
  inside : stop ≤ lines.length

/-- The spans of the syntax trees are ranges of their files. -/
structure Grammar.InFile (grammar : Grammar) : Prop where
  definitions : ∀ path lines, ∀ e ∈ grammar.definitions path lines, ∀ span ∈ e.2,
    Citations.InFile lines span.1 span.2
  calls : ∀ path lines, ∀ call ∈ grammar.callArgumentLiterals path lines,
    Citations.InFile lines call.start call.stop

theorem Holds.inFile {anchor : Anchor} {lines : List (List Char)} {extent : Extent}
    (h : Holds anchor lines extent) : InFile lines extent.start extent.stop :=
  ⟨h.opened, h.ordered, h.inside⟩

section bounds
variable {grammar : Grammar} {path : String} {lines : List (List Char)} {extent : Extent}
  (hgrammar : grammar.InFile)
include hgrammar

theorem inFile_symbol {name : String} (h : extent ∈ symbolExtents grammar name path lines) :
    InFile lines extent.start extent.stop := by
  rw [symbolExtents] at h
  split at h
  · rw [lookup_definitions] at h
    cases hlookup : (grammar.definitions path lines).lookup name with
    | none => simp [hlookup] at h
    | some spans =>
      rw [hlookup] at h
      obtain ⟨span, hspan, rfl⟩ := List.mem_map.mp h
      exact hgrammar.definitions path lines _ (Keyed.mem_of_lookup hlookup) span hspan
  · exact (holds_run h).1.inFile

theorem inFile_quote {quote : String} (hplain : Plain lines) {found : List Extent}
    (hfound : anchorExtents grammar ⟨.quote, quote⟩ path lines = some found) (h : extent ∈ found) :
    InFile lines extent.start extent.stop := by
  obtain ⟨ones, hgenerated, -, hmem⟩ := exists_matches grammar quote path lines
  rw [hgenerated, Option.some.injEq] at hfound
  rw [← hfound] at h
  rcases mem_widenedQuotes.mp h with ⟨call, hcall, -, rfl⟩ | ⟨one, hone, -, rfl⟩
  · exact hgrammar.calls path lines call hcall
  · obtain ⟨hne, ⟨offset, hoffset, hmatch⟩ | ⟨block, hblock, hone⟩⟩ := (hmem one).mp hone
    · -- a match in the raw text lies in the file, whatever marks it takes in
      obtain ⟨one', i, j, hone', hstart, hstop, hij, hj, -⟩ :=
        raw_match (Words.tight_collapse hne) hoffset
      obtain rfl : one' = one := Option.some.inj (hone'.symm.trans hmatch)
      refine ⟨?_, ?_, ?_⟩
      · show 1 ≤ one'.start
        omega
      · show one'.start ≤ one'.stop
        omega
      · show one'.stop ≤ lines.length
        omega
    · exact (held_of_block hplain hblock hne hone).inFile

theorem inFile_anchorExtents {anchor : Anchor} (hplain : Plain lines) {found : List Extent}
    (hfound : anchorExtents grammar anchor path lines = some found) (h : extent ∈ found) :
    InFile lines extent.start extent.stop := by
  obtain ⟨kind, text⟩ := anchor
  cases kind with
  | symbol =>
    obtain rfl : symbolExtents grammar text path lines = found := Option.some.inj hfound
    exact inFile_symbol hgrammar h
  | heading =>
    obtain rfl : headingExtents text.toList lines = found := Option.some.inj hfound
    exact (holds_section hplain h).1.inFile
  | quote => exact inFile_quote hgrammar hplain hfound h

end bounds

/-- What a walk finds lies in the file. -/
theorem inFile_extents {walk : Walk} (hgrammar : walk.grammar.InFile) {path : String}
    {anchor : Anchor} {extent : Extent} (h : extent ∈ walk.extents path anchor) :
    ∃ lines, walk.lines path = some lines ∧ InFile lines extent.start extent.stop := by
  obtain ⟨lines, hlines⟩ := exists_lines (List.ne_nil_of_mem h)
  refine ⟨lines, hlines, ?_⟩
  rw [extents_some hlines, answered] at h
  split at h
  · cases h
  · cases hfound : anchorExtents walk.grammar anchor path lines with
    | none => simp [hfound] at h
    | some found =>
      rw [hfound] at h
      exact inFile_anchorExtents hgrammar (plain_lines hlines) hfound h

end AgentsRemember.Citations
