import AgentsRemember.Citations.Generated

/-!
# Citations — Sightings

What one walk of the fixer reads: the ranges of an anchor in a file, and where
in the code tree the anchor is at all. Definitions are kept wherever they are, of
the files that mention an anchor only the first.
-/

namespace AgentsRemember.Citations

/-- `Trees.ours`: an entry at the top of one of the two roots. -/
def Trees.ours (trees : Trees) (path : String) : Bool :=
  trees.code.entries (firstSegment path) || trees.memory.entries (firstSegment path)

/-- The trees of one walk, and how their files are read. -/
structure Walk where
  trees : Trees
  decode : Bytes → List Char
  grammar : Grammar
  /-- Whether the language of a path has a grammar. -/
  parsed : String → Bool
  /-- The code files, as a source spells them. -/
  codeFiles : List String
  codeFiles_found : ∀ path ∈ codeFiles, (trees.resolve path).isSome = true

/-- `sources.lines` of what a path resolves to. -/
def Walk.lines (walk : Walk) (path : String) : Option (List (List Char)) :=
  (walk.trees.resolve path).map fun found => Lines.splitlines (walk.decode found.2)

/-- `sources.view(file, path).extents(anchor)`, or nothing when there is no file. A
view that was asked before answers the same. -/
def Walk.extents (walk : Walk) (path : String) (anchor : Anchor) : List Extent :=
  match walk.lines path with
  | none => []
  | some lines =>
    ((({ path := path, lines := lines } : FileView).extents walk.grammar anchor).1).getD []

/-! ## The code tree -/

/-- An extent in a file. -/
structure Location where
  path : String
  extent : Extent

/-- What a walk saw of an anchor. -/
structure Sightings where
  locations : List Location := []
  files : Nat := 0
  definingFiles : Nat := 0
  truncated : Bool := false

/-- The places where the anchor is defined. -/
def Sightings.definitions (seen : Sightings) : List Location :=
  seen.locations.filter fun one => one.extent.kind = .definition

/-- The single location that a pure move repoints to. A mention in a parsed file
never resolves a move. -/
def Sightings.unique (parsed : String → Bool) (seen : Sightings) : Option Location :=
  if seen.definingFiles = 1 then
    match seen.definitions with
    | [one] => some one
    | _ => none
  else if seen.definingFiles ≠ 0 ∨ seen.files ≠ 1 then none
  else
    match seen.locations with
    | [one] => if parsed one.path then none else some one
    | _ => none

/-- The cap on the files that only mention an anchor. -/
def locationFileLimit : Nat := 20

/-- What a walk has seen so far. -/
structure Batch where
  locations : List Location := []
  files : Nat := 0
  definingFiles : Nat := 0
  mentioning : Nat := 0

/-- One more file, which holds the anchor. -/
def Batch.record (batch : Batch) (path : String) (found : List Extent) : Batch :=
  let more := batch.locations ++ found.map fun one => ⟨path, one⟩
  if found.head?.any fun first => first.kind = .definition then
    { batch with
      locations := more, files := batch.files + 1, definingFiles := batch.definingFiles + 1 }
  else
    { batch with
      locations := if batch.mentioning + 1 ≤ locationFileLimit then more else batch.locations
      files := batch.files + 1
      mentioning := batch.mentioning + 1 }

/-- A walk at its end. -/
def Batch.sightings (batch : Batch) : Sightings :=
  ⟨batch.locations, batch.files, batch.definingFiles, locationFileLimit < batch.mentioning⟩

/-- `_visit`, of one file and one anchor. -/
def Walk.visit (walk : Walk) (anchor : Anchor) (batch : Batch) (path : String) : Batch :=
  if walk.extents path anchor = [] then batch else batch.record path (walk.extents path anchor)

/-- `locate`: the anchor in the code tree. -/
def Walk.locate (walk : Walk) (anchor : Anchor) : Sightings :=
  (walk.codeFiles.foldl (walk.visit anchor) {}).sightings

/-! ## What is read -/

section walk
variable {walk : Walk} {path : String} {anchor : Anchor} {lines : List (List Char)}

theorem plain_lines (h : walk.lines path = some lines) : Plain lines := by
  obtain ⟨found, -, rfl⟩ := Option.map_eq_some_iff.mp h
  exact fun _ hline _ hc => Lines.isBreak_of_mem_splitlines hline hc

theorem extents_none (h : walk.lines path = none) : walk.extents path anchor = [] := by
  rw [Walk.extents, h]

theorem exists_lines (h : walk.extents path anchor ≠ []) :
    ∃ lines, walk.lines path = some lines :=
  Option.ne_none_iff_exists'.mp fun hnone => h (extents_none hnone)

/-- A file is read for an anchor as the generator reads it, but for the test of the name. -/
theorem extents_some (h : walk.lines path = some lines) :
    walk.extents path anchor = (answered walk.grammar anchor path lines).getD [] := by
  have hfresh : FileView.Fresh walk.grammar path lines { path := path, lines := lines } :=
    FileView.after_fresh walk.grammar path lines []
  rw [Walk.extents, h]
  exact congrArg (Option.getD · []) (FileView.extents_fresh hfresh anchor).1

theorem Sightings.mem_of_unique {parsed : String → Bool} {seen : Sightings} {one : Location}
    (h : seen.unique parsed = some one) : one ∈ seen.locations := by
  unfold Sightings.unique at h
  split at h
  · split at h
    · rename_i found hfound
      cases h
      have hmem : one ∈ seen.definitions := by simp [hfound]
      exact List.mem_of_mem_filter hmem
    · cases h
  split at h
  · cases h
  split at h
  · rename_i found hfound
    split at h
    · cases h
    · cases h
      simp [hfound]
  · cases h

theorem mem_record {batch : Batch} {found : List Extent} {one : Location}
    (h : one ∈ (batch.record path found).locations) :
    one ∈ batch.locations ∨ one.path = path ∧ one.extent ∈ found := by
  have hmore : one ∈ batch.locations ++ found.map (fun extent => (⟨path, extent⟩ : Location)) →
      one ∈ batch.locations ∨ one.path = path ∧ one.extent ∈ found := by
    intro hone
    rcases List.mem_append.mp hone with hone | hone
    · exact .inl hone
    · obtain ⟨extent, hextent, rfl⟩ := List.mem_map.mp hone
      exact .inr ⟨rfl, hextent⟩
  unfold Batch.record at h
  dsimp only at h
  split at h
  · exact hmore h
  · dsimp only at h
    split at h
    · exact hmore h
    · exact .inl h

/-- What is sighted is a range of the anchor in a code file. -/
theorem mem_locate {one : Location} (h : one ∈ (walk.locate anchor).locations) :
    one.path ∈ walk.codeFiles ∧ one.extent ∈ walk.extents one.path anchor := by
  have hrun : ∀ files : List String, ∀ batch : Batch, (∀ path ∈ files, path ∈ walk.codeFiles) →
      (∀ l ∈ batch.locations, l.path ∈ walk.codeFiles ∧ l.extent ∈ walk.extents l.path anchor) →
      ∀ l ∈ (files.foldl (walk.visit anchor) batch).locations,
        l.path ∈ walk.codeFiles ∧ l.extent ∈ walk.extents l.path anchor := by
    intro files
    induction files with
    | nil => exact fun batch _ hbatch => hbatch
    | cons path files ih =>
      intro batch hfiles hbatch
      refine ih _ (fun p hp => hfiles p (List.mem_cons_of_mem _ hp)) fun l hl => ?_
      unfold Walk.visit at hl
      split at hl
      · exact hbatch l hl
      · rcases mem_record hl with hl | ⟨rfl, hl⟩
        · exact hbatch l hl
        · exact ⟨hfiles _ List.mem_cons_self, hl⟩
  exact hrun _ _ (fun _ hp => hp) (by simp) one h

end walk

end AgentsRemember.Citations
