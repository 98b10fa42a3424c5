import AgentsRemember.Citations.Agreement

/-!
# Citations — Demotion

When a change of cited evidence is only surfaced. A change is demoted where a
cited range holds the line that the construct is declared on now; the ranges of
all the cited files are asked, and not only those of the file it stands in.
-/

namespace AgentsRemember.Citations

variable {τ : Type}

/-! ## Where a pointer lands -/

/-- The source cites the file that the candidate stands in. -/
def citesFileOf (candidate : Candidate τ) (source : LocalSource τ) : Prop :=
  source.citation.path = candidate.source.citation.path

/-- The cited range holds the line the construct begins on. -/
def holdsDeclaration (candidate : Candidate τ) (source : LocalSource τ) : Prop :=
  source.citation.start ≤ candidate.extent.start ∧ candidate.extent.start ≤ source.citation.stop

/-- A cited range of its own file holds the candidate's declaration line. -/
def LandsOn (candidate : Candidate τ) (sources : List (LocalSource τ)) : Prop :=
  ∃ source ∈ sources, citesFileOf candidate source ∧ holdsDeclaration candidate source

theorem inCitedRange_iff {candidate : Candidate τ} {sources : List (LocalSource τ)} :
    inCitedRange candidate sources = true ↔ ∃ source ∈ sources, holdsDeclaration candidate source := by
  simp [inCitedRange, holdsDeclaration]

/-- The evidence of an anchor is there before or now, and is not the same once. -/
def EvidenceChanged (before now : List (Candidate τ)) : Prop :=
  (before ≠ [] ∨ now ≠ []) ∧ ∀ verified candidate, before = [verified] → now = [candidate] →
    verified.fingerprint ≠ candidate.fingerprint

/-- The construct is new, or another one than at verification. -/
def NewOrDifferent (before : List (Candidate τ)) (candidate : Candidate τ) : Prop :=
  before = [] ∨ ∃ verified, before = [verified] ∧ verified.fingerprint ≠ candidate.fingerprint

/-- One list at most has an entry. -/
def Changes.Single (changes : Changes) : Prop :=
  (changes.changed = [] ∧ changes.surfaced = []) ∨ (changes.changed = [] ∧ changes.invalid = []) ∨
    (changes.surfaced = [] ∧ changes.invalid = [])

/-- What a demotion is worth: a change is surfaced where the pointer lands on
the construct, and reported otherwise. -/
structure DemotionExact (sources : List (LocalSource τ)) (before now : List (Candidate τ))
    (changes : Changes) : Prop where
  surfaced : changes.surfaced ≠ [] → ∃ candidate, now = [candidate] ∧ LandsOn candidate sources
  reported : EvidenceChanged before now → changes.surfaced = [] →
    changes.changed ≠ [] ∨ changes.invalid ≠ []
  single : changes.Single

/-! ## The comparison -/

section comparison
variable {anchor : Anchor} {sources : List (LocalSource τ)} {dependencySources : Bool}

theorem currencyOf_single (candidate : Candidate τ) (detail : String) :
    (currencyOf candidate sources detail).Single := by
  unfold currencyOf
  split
  · exact .inr (.inl ⟨rfl, rfl⟩)
  · exact .inr (.inr ⟨rfl, rfl⟩)

theorem currencyOf_surfaced {candidate : Candidate τ} {detail : String} :
    (currencyOf candidate sources detail).surfaced ≠ [] ↔ inCitedRange candidate sources = true := by
  unfold currencyOf
  split
  next h => simp [h]
  next h => simp [h]

/-- A change is surfaced where it is the only candidate, it is not what it was,
and some cited range holds its line. -/
theorem compareCandidates_surfaced {before now : List (Candidate τ)} :
    (compareCandidates anchor sources dependencySources before now).surfaced ≠ [] ↔
      ∃ candidate, now = [candidate] ∧ NewOrDifferent before candidate ∧
        inCitedRange candidate sources = true := by
  rcases before with _ | ⟨verified, _ | ⟨another, before⟩⟩ <;>
    rcases now with _ | ⟨candidate, _ | ⟨other, now⟩⟩
  case nil.nil => cases dependencySources <;> simp [compareCandidates]
  case nil.cons.nil =>
    rw [compareCandidates, currencyOf_surfaced]
    simp [NewOrDifferent]
  case cons.nil.cons.nil =>
    rw [compareCandidates]
    split
    next hsame => simp [NewOrDifferent, hsame]
    next hdiffers =>
      rw [currencyOf_surfaced]
      simp [NewOrDifferent, hdiffers]
  all_goals simp [compareCandidates, NewOrDifferent]

theorem compareCandidates_single {before now : List (Candidate τ)} :
    (compareCandidates anchor sources dependencySources before now).Single := by
  unfold compareCandidates
  split
  · cases dependencySources <;> exact .inr (.inr ⟨rfl, rfl⟩)
  · exact currencyOf_single _ _
  · exact .inl ⟨rfl, rfl⟩
  · exact .inr (.inr ⟨rfl, rfl⟩)
  · split
    · exact .inl ⟨rfl, rfl⟩
    · exact currencyOf_single _ _
  · exact .inl ⟨rfl, rfl⟩
  · exact .inl ⟨rfl, rfl⟩

/-- Changed evidence is in one of the three lists. -/
theorem compareCandidates_reported {before now : List (Candidate τ)}
    (h : EvidenceChanged before now)
    (hsurfaced : (compareCandidates anchor sources dependencySources before now).surfaced = []) :
    (compareCandidates anchor sources dependencySources before now).changed ≠ [] ∨
      (compareCandidates anchor sources dependencySources before now).invalid ≠ [] := by
  obtain ⟨hthere, hdiffers⟩ := h
  have hcurrency : ∀ candidate detail, (currencyOf candidate sources detail).surfaced = [] →
      (currencyOf candidate sources detail).changed ≠ [] := by
    intro candidate detail
    unfold currencyOf
    split <;> simp
  rcases before with _ | ⟨verified, _ | ⟨another, before⟩⟩ <;>
    rcases now with _ | ⟨candidate, _ | ⟨other, now⟩⟩
  case nil.nil => simp at hthere
  case nil.cons.nil => exact .inl (hcurrency _ _ hsurfaced)
  case cons.nil.cons.nil =>
    have hne := hdiffers verified candidate rfl rfl
    simp only [compareCandidates, if_neg hne] at hsurfaced ⊢
    exact .inl (hcurrency _ _ hsurfaced)
  all_goals simp [compareCandidates]

end comparison

/-! ## The condition -/

/-- Where the only candidate is new or different and a cited range of another
file holds its line, a cited range of its own file does so too. -/
def OwnRangeToo (sources : List (LocalSource τ)) (before now : List (Candidate τ)) : Prop :=
  ∀ candidate, now = [candidate] → NewOrDifferent before candidate →
    (∃ source ∈ sources, ¬citesFileOf candidate source ∧ holdsDeclaration candidate source) →
    LandsOn candidate sources

/-- A changed citation is demoted only when the pointer still lands on it:
exactly where no range of another file stands in for one of its own. -/
theorem anchorChange_exact_iff (reader : SourceReader τ) (sources : List (LocalSource τ))
    (dependencySources : Bool) (anchor : Anchor) :
    DemotionExact sources (reader.selected anchor sources true)
        (reader.selected anchor sources false)
        (reader.anchorChange sources dependencySources anchor) ↔
      OwnRangeToo sources (reader.selected anchor sources true)
        (reader.selected anchor sources false) := by
  unfold SourceReader.anchorChange
  constructor
  · intro h candidate hnow hnew hother
    obtain ⟨source, hsource, -, hholds⟩ := hother
    have hcited : inCitedRange candidate sources = true :=
      inCitedRange_iff.mpr ⟨source, hsource, hholds⟩
    obtain ⟨found, hfound, hlands⟩ :=
      h.surfaced (compareCandidates_surfaced.mpr ⟨candidate, hnow, hnew, hcited⟩)
    rw [hnow] at hfound
    obtain rfl : candidate = found := List.head_eq_of_cons_eq hfound
    exact hlands
  · intro h
    refine ⟨?_, compareCandidates_reported, compareCandidates_single⟩
    intro hsurfaced
    obtain ⟨candidate, hnow, hnew, hcited⟩ := compareCandidates_surfaced.mp hsurfaced
    refine ⟨candidate, hnow, ?_⟩
    obtain ⟨source, hsource, hholds⟩ := inCitedRange_iff.mp hcited
    by_cases hown : citesFileOf candidate source
    · exact ⟨source, hsource, hown, hholds⟩
    · exact h candidate hnow hnew ⟨source, hsource, hown, hholds⟩

/-! ## A range of another file -/

/-- A cited file as it was and as it is. -/
def linesSource (path : String) (start stop : Nat) (historical current : List Bytes) :
    LocalSource (List Bytes) where
  citation := ⟨path ++ ":" ++ toString start ++ "-" ++ toString stop, path, start, stop⟩
  current := some current
  historical := some historical
  provenanceLabel := "code commit c1"

/-- `b` is new on the third line of `notes.txt`, of which only the first line is
cited; three lines of `todo.txt` are cited, and none of them is `b`. -/
def twoFiles : List (LocalSource (List Bytes)) :=
  [linesSource "notes.txt" 1 1 [[97]] [[97], [99], [98]],
    linesSource "todo.txt" 1 3 [[99], [99], [99]] [[99], [99], [99]]]

/-- The change is surfaced, although no pointer lands on it. -/
theorem anchorChange_other_file :
    (plainReader.anchorChange twoFiles false ⟨.symbol, "b"⟩).surfaced ≠ [] ∧
    ¬DemotionExact twoFiles (plainReader.selected ⟨.symbol, "b"⟩ twoFiles true)
      (plainReader.selected ⟨.symbol, "b"⟩ twoFiles false)
      (plainReader.anchorChange twoFiles false ⟨.symbol, "b"⟩) := by
  have hsurfaced : (plainReader.anchorChange twoFiles false ⟨.symbol, "b"⟩).surfaced ≠ [] := by
    decide +kernel
  refine ⟨hsurfaced, fun h => ?_⟩
  obtain ⟨candidate, hnow, source, hsource, hown, hholds⟩ := h.surfaced hsurfaced
  have hplace : (plainReader.selected ⟨.symbol, "b"⟩ twoFiles false).map
      (fun candidate => (candidate.source.citation.path, candidate.extent.start)) =
        [("notes.txt", 3)] := by
    decide +kernel
  rw [hnow, List.map_singleton, List.singleton_inj, Prod.mk.injEq] at hplace
  rw [citesFileOf, hplace.1] at hown
  rw [holdsDeclaration, hplace.2] at hholds
  simp only [twoFiles, List.mem_cons, List.not_mem_nil, or_false] at hsource
  obtain rfl | rfl := hsource
  · exact absurd hholds.2 (by decide)
  · exact absurd hown (by decide)

end AgentsRemember.Citations
