import AgentsRemember.Citations.Ranges
import AgentsRemember.Citations.Repair
import AgentsRemember.Foundation.Deduped

/-!
# Citations — Settled

What the plan of a repair leaves behind. Where it does not decline, what is
written is read back as it was meant, keeps the sources of somebody else's tree,
names no file that is gone, and holds the anchors; only a file that holds none of
them can keep a range that runs past its end. And when planning again gives the
same list.
-/

namespace AgentsRemember.Citations

/-! ## Placing -/

section placing
variable {walk : Walk} {sightings : Anchor → Sightings} {continuity : Option Continuity}
  {citations : List Citation} {anchor : Anchor}

/-- The cited files that hold an anchor offer no choice. -/
def Definite (walk : Walk) (citations : List Citation) (anchor : Anchor) : Prop :=
  ∀ citation ∈ citations, walk.extents citation.path anchor ≠ [] →
    ∃ extent, chosen (walk.extents citation.path anchor) citation = some extent

theorem placeCited_eq_ok {placed : List ResolvedLocation}
    (h : placeCited walk anchor citations = .ok placed) (one : ResolvedLocation) :
    one ∈ placed ↔ ∃ citation ∈ citations, ∃ extent, walk.extents citation.path anchor ≠ [] ∧
      chosen (walk.extents citation.path anchor) citation = some extent ∧
      one = ⟨anchor, citation.path, extent⟩ := by
  induction citations generalizing placed with
  | nil =>
    cases h
    simp
  | cons citation rest ih =>
    rw [placeCited] at h
    split at h
    · rename_i hnil
      rw [ih h]
      simp [hnil]
    · rename_i hheld
      split at h
      · cases h
      · rename_i extent hchosen
        obtain ⟨later, hlater, h⟩ := Attempts.bind_eq_ok.mp h
        cases h
        rw [List.mem_cons, ih hlater]
        simp [hheld, hchosen]

theorem placeCited_ok_iff :
    (∃ placed, placeCited walk anchor citations = .ok placed) ↔ Definite walk citations anchor := by
  unfold Definite
  induction citations with
  | nil => simp [placeCited]
  | cons citation rest ih =>
    rw [placeCited, List.forall_mem_cons]
    split
    · rename_i hnil
      rw [ih]
      simp [hnil]
    · rename_i hheld
      split
      · rename_i hnone
        simp [hheld, hnone]
      · rename_i extent hchosen
        rw [← ih]
        constructor
        · rintro ⟨placed, h⟩
          obtain ⟨later, hlater, -⟩ := Attempts.bind_eq_ok.mp h
          exact ⟨fun _ => ⟨extent, hchosen⟩, later, hlater⟩
        · rintro ⟨-, later, hlater⟩
          exact ⟨_, by rw [hlater]; rfl⟩

theorem chosen_mem {found : List Extent} {citation : Citation} {extent : Extent}
    (h : chosen found citation = some extent) : extent ∈ found := by
  unfold chosen at h
  split at h
  · rw [← Option.some.inj h]
    exact List.mem_singleton_self _
  · split at h
    · rename_i one hone
      rw [← Option.some.inj h]
      have hmem : one ∈ found.filter fun e => e.overlaps citation.start citation.stop := by
        rw [hone]
        exact List.mem_singleton_self _
      exact List.mem_of_mem_filter hmem
    · cases h

/-- An extent that overlaps the cited range is the one that is chosen, if one is. -/
theorem chosen_eq {found : List Extent} {citation : Citation} {extent other : Extent}
    (h : chosen found citation = some extent) (hmem : other ∈ found)
    (hoverlaps : other.overlaps citation.start citation.stop = true) : extent = other := by
  unfold chosen at h
  split at h
  · rw [← Option.some.inj h]
    exact (List.mem_singleton.mp hmem).symm
  · split at h
    · rename_i one hone
      rw [← Option.some.inj h]
      have hfilter : other ∈ found.filter fun e => e.overlaps citation.start citation.stop :=
        List.mem_filter.mpr ⟨hmem, hoverlaps⟩
      rw [hone] at hfilter
      exact (List.mem_singleton.mp hfilter).symm
    · cases h

theorem sortedPaths_eq_nil {paths : List String} : sortedPaths paths = [] ↔ paths = [] := by
  constructor
  · intro h
    refine List.eq_nil_iff_forall_not_mem.mpr fun path hpath => ?_
    have hmem : path ∈ sortedPaths paths := by
      rw [sortedPaths, List.mem_insertionSort, List.mem_eraseDups]
      exact hpath
    rw [h] at hmem
    cases hmem
  · rintro rfl
    rfl

theorem mem_sortedPaths {paths : List String} {path : String} :
    path ∈ sortedPaths paths ↔ path ∈ paths := by
  rw [sortedPaths, List.mem_insertionSort, List.mem_eraseDups]

/-- An anchor is relocated only when no cited file is left, and to where it was sighted. -/
theorem retarget_eq_ok {location : ResolvedLocation}
    (h : retarget walk sightings continuity citations anchor = .ok location) :
    (∀ citation ∈ citations, walk.lines citation.path = none) ∧ location.anchor = anchor ∧
      ⟨location.path, location.extent⟩ ∈ (sightings anchor).locations := by
  unfold retarget at h
  dsimp only at h
  split at h
  · cases h
  · rename_i hlive
    have hgone : ∀ citation ∈ citations, walk.lines citation.path = none := by
      intro citation hcitation
      by_contra hsome
      apply hlive
      intro hnil
      rw [sortedPaths_eq_nil, List.map_eq_nil_iff, List.filter_eq_nil_iff] at hnil
      exact hnil citation hcitation (Option.isSome_iff_ne_none.mpr hsome)
    split at h
    · cases h
    · rename_i unique hunique
      split at h
      · cases h
      · split at h
        · cases h
        · cases h
          exact ⟨hgone, rfl, Sightings.mem_of_unique hunique⟩

/-- Where an anchor is placed: in every cited file that holds it, or, when no cited file is
left, in one file of the tree. -/
structure PlacedAt (walk : Walk) (continuity : Option Continuity) (citations : List Citation)
    (anchor : Anchor) (placed : List ResolvedLocation) (moved : Bool) : Prop where
  nonempty : placed ≠ []
  held : ∀ one ∈ placed, one.anchor = anchor ∧ one.extent ∈ walk.extents one.path anchor
  every : ∀ citation ∈ citations, walk.extents citation.path anchor ≠ [] →
    ∃ extent, chosen (walk.extents citation.path anchor) citation = some extent ∧
      ⟨anchor, citation.path, extent⟩ ∈ placed
  cited : moved = false → ∀ one ∈ placed, ∃ citation ∈ citations, citation.path = one.path ∧
    chosen (walk.extents citation.path anchor) citation = some one.extent
  gone : moved = true → ∀ citation ∈ citations, walk.lines citation.path = none
  sighted : moved = true → ∀ one ∈ placed,
    retarget walk walk.locate continuity citations anchor = .ok one

theorem place_eq_ok {result : List ResolvedLocation × Bool}
    (h : place walk walk.locate continuity citations anchor = .ok result) :
    PlacedAt walk continuity citations anchor result.1 result.2 := by
  obtain ⟨placed, hplaced, h⟩ := Attempts.bind_eq_ok.mp h
  have hmem := placeCited_eq_ok hplaced
  have hdefinite := placeCited_ok_iff.mp ⟨placed, hplaced⟩
  have hevery : ∀ citation ∈ citations, walk.extents citation.path anchor ≠ [] →
      ∃ extent, chosen (walk.extents citation.path anchor) citation = some extent ∧
        ⟨anchor, citation.path, extent⟩ ∈ placed := by
    intro citation hcitation hheld
    obtain ⟨extent, hchosen⟩ := hdefinite citation hcitation hheld
    exact ⟨extent, hchosen, (hmem _).mpr ⟨citation, hcitation, extent, hheld, hchosen, rfl⟩⟩
  split at h
  · rename_i hne
    cases h
    refine ⟨hne, fun one hone => ?_, hevery, fun _ one hone => ?_, by simp, by simp⟩
    · obtain ⟨citation, -, extent, -, hchosen, rfl⟩ := (hmem one).mp hone
      exact ⟨rfl, chosen_mem hchosen⟩
    · obtain ⟨citation, hcitation, extent, -, hchosen, rfl⟩ := (hmem one).mp hone
      exact ⟨citation, hcitation, rfl, hchosen⟩
  · rename_i hnil
    obtain ⟨location, hlocation, h⟩ := Attempts.bind_eq_ok.mp h
    cases h
    obtain ⟨hgone, hanchor, hsighted⟩ := retarget_eq_ok hlocation
    obtain ⟨-, hextent⟩ := mem_locate hsighted
    refine ⟨by simp, fun one hone => ?_, fun citation hcitation hheld => ?_, by simp,
      fun _ => hgone, fun _ one hone => ?_⟩
    · rw [List.mem_singleton.mp hone]
      exact ⟨hanchor, hextent⟩
    · exact absurd (extents_none (hgone citation hcitation)) hheld
    · rw [List.mem_singleton.mp hone]
      exact hlocation

theorem placeCited_eq_error {decline : Decline}
    (h : placeCited walk anchor citations = .error decline) : decline.anchor = anchor := by
  induction citations with
  | nil => cases h
  | cons citation rest ih =>
    rw [placeCited] at h
    split at h
    · exact ih h
    · split at h
      · cases h
        rfl
      · obtain h | ⟨later, -, h⟩ := Attempts.bind_eq_error.mp h
        · exact ih h
        · cases h

theorem retarget_eq_error {decline : Decline}
    (h : retarget walk sightings continuity citations anchor = .error decline) :
    decline.anchor = anchor := by
  unfold retarget at h
  dsimp only at h
  split at h
  · cases h
    rfl
  split at h
  · cases h
    rfl
  split at h
  · cases h
    rfl
  split at h
  · cases h
    rfl
  · cases h

/-- A refusal names the anchor that could not be placed. -/
theorem place_eq_error {decline : Decline}
    (h : place walk sightings continuity citations anchor = .error decline) :
    decline.anchor = anchor := by
  obtain h | ⟨placed, -, h⟩ := Attempts.bind_eq_error.mp h
  · exact placeCited_eq_error h
  · split at h
    · cases h
    · obtain h | ⟨location, -, h⟩ := Attempts.bind_eq_error.mp h
      · exact retarget_eq_error h
      · cases h

/-- An anchor that some cited file holds is placed exactly when no file offers a choice. -/
theorem place_ok_iff (h : ∃ citation ∈ citations, walk.extents citation.path anchor ≠ []) :
    (∃ result, place walk sightings continuity citations anchor = .ok result) ↔
      Definite walk citations anchor := by
  rw [← placeCited_ok_iff]
  constructor
  · rintro ⟨result, h⟩
    obtain ⟨placed, hplaced, -⟩ := Attempts.bind_eq_ok.mp h
    exact ⟨placed, hplaced⟩
  · rintro ⟨placed, hplaced⟩
    obtain ⟨citation, hcitation, hheld⟩ := h
    obtain ⟨extent, hchosen⟩ := placeCited_ok_iff.mp ⟨placed, hplaced⟩ citation hcitation hheld
    have hne : placed ≠ [] := List.ne_nil_of_mem
      ((placeCited_eq_ok hplaced _).mpr ⟨citation, hcitation, extent, hheld, hchosen, rfl⟩)
    exact ⟨(placed, false), by rw [place, hplaced]; exact if_pos hne⟩

end placing

/-! ## The plan -/

/-- What a plan has found for a claim. -/
structure Found (walk : Walk) (continuity : Option Continuity) (claim : Claim) (found : Plan) :
    Prop where
  placed : ∀ anchor ∈ claim.anchors, ∃ one ∈ found.locations, one.anchor = anchor
  held : ∀ one ∈ found.locations, one.anchor ∈ claim.anchors ∧
    one.extent ∈ walk.extents one.path one.anchor
  every : ∀ anchor ∈ claim.anchors, ∀ citation ∈ claim.citations,
    walk.extents citation.path anchor ≠ [] →
    ∃ extent, chosen (walk.extents citation.path anchor) citation = some extent ∧
      ⟨anchor, citation.path, extent⟩ ∈ found.locations
  sources : ∀ one ∈ found.locations, (∃ citation ∈ claim.citations, citation.path = one.path ∧
    chosen (walk.extents citation.path one.anchor) citation = some one.extent) ∨
      retarget walk walk.locate continuity claim.citations one.anchor = .ok one ∧
        ∀ citation ∈ claim.citations, walk.lines citation.path = none
  gone : found.relocated = true → ∀ citation ∈ claim.citations, walk.lines citation.path = none

theorem plan_eq_ok {walk : Walk} {continuity : Option Continuity} {claim : Claim}
    {repair : Repair} (h : plan walk walk.locate continuity claim = .ok repair) :
    ∃ found, Found walk continuity claim found ∧
      repair.sources = (written walk claim.citations found).map Citation.text := by
  obtain ⟨placed, hplaced, h⟩ := Attempts.bind_eq_ok.mp h
  cases h
  have hmem := Attempts.mem_mapM hplaced
  have hone : ∀ result ∈ placed, ∃ anchor ∈ claim.anchors,
      PlacedAt walk continuity claim.citations anchor result.1 result.2 := by
    intro result hresult
    obtain ⟨anchor, hanchor, hplace⟩ := (hmem result).mp hresult
    exact ⟨anchor, hanchor, place_eq_ok hplace⟩
  have hanchor : ∀ anchor ∈ claim.anchors, ∃ result ∈ placed,
      PlacedAt walk continuity claim.citations anchor result.1 result.2 := by
    intro anchor hanchor
    obtain ⟨result, hplace⟩ := Attempts.ok_of_mem_mapM hplaced hanchor
    exact ⟨result, (hmem result).mpr ⟨anchor, hanchor, hplace⟩, place_eq_ok hplace⟩
  refine ⟨_, ?_, rfl⟩
  constructor
  · intro anchor hmemAnchor
    obtain ⟨result, hresult, hat⟩ := hanchor anchor hmemAnchor
    obtain ⟨one, hone⟩ := List.exists_mem_of_ne_nil _ hat.nonempty
    exact ⟨one, List.mem_flatMap.mpr ⟨result, hresult, hone⟩, (hat.held one hone).1⟩
  · intro one hmemOne
    obtain ⟨result, hresult, hin⟩ := List.mem_flatMap.mp hmemOne
    obtain ⟨anchor, hmemAnchor, hat⟩ := hone result hresult
    obtain ⟨rfl, hextent⟩ := hat.held one hin
    exact ⟨hmemAnchor, hextent⟩
  · intro anchor hmemAnchor citation hcitation hheld
    obtain ⟨result, hresult, hat⟩ := hanchor anchor hmemAnchor
    obtain ⟨extent, hchosen, hin⟩ := hat.every citation hcitation hheld
    exact ⟨extent, hchosen, List.mem_flatMap.mpr ⟨result, hresult, hin⟩⟩
  · intro one hmemOne
    obtain ⟨result, hresult, hin⟩ := List.mem_flatMap.mp hmemOne
    obtain ⟨anchor, -, hat⟩ := hone result hresult
    obtain ⟨rfl, -⟩ := hat.held one hin
    cases hmoved : result.2 with
    | true => exact .inr ⟨hat.sighted hmoved one hin, hat.gone hmoved⟩
    | false => exact .inl (hat.cited hmoved one hin)
  · intro hrelocated
    obtain ⟨result, hresult, hmoved⟩ := List.any_eq_true.mp hrelocated
    obtain ⟨anchor, -, hat⟩ := hone result hresult
    exact hat.gone hmoved

/-! ## The list that is written -/

/-- Sources that the list can spell, and files that an anchor of the claim is relocated to. -/
structure Spelt (walk : Walk) (continuity : Option Continuity) (claim : Claim) : Prop where
  sources : ∀ citation ∈ claim.citations, Spelled citation
  destinations : ∀ anchor ∈ claim.anchors, ∀ location,
    retarget walk walk.locate continuity claim.citations anchor = .ok location →
      PlainPath location.path

theorem parseSource_path {text : List Char} {citation : Citation}
    (h : parseSource text = some citation) : citation.path.toList ≠ [] ∧
      repoRelative citation.path.toList = true ∧ ∀ c ∈ citation.path.toList, c ∈ text := by
  unfold parseSource at h
  dsimp only at h
  split at h
  · cases h
  · rename_i hpath
    obtain ⟨range, -, rfl⟩ := Option.map_eq_some_iff.mp h
    simp only [not_or, Bool.not_eq_true', Bool.not_eq_false] at hpath
    rw [String.toList_ofList]
    refine ⟨hpath.1, by simpa using hpath.2.2, fun c hc => ?_⟩
    exact (List.rdropWhile_prefix _ _).subset (List.dropLast_subset _ hc)

theorem Spelled.plainPath {citation : Citation} (h : Spelled citation) :
    PlainPath citation.path := by
  obtain ⟨hne, hrelative, hmem⟩ := parseSource_path h.parses
  exact ⟨hne, fun c hc => h.inert c (hmem c hc), hrelative⟩

/-- Sources that read alike are alike. -/
theorem Spelled.text_injective {a b : Citation} (ha : Spelled a) (hb : Spelled b)
    (h : a.text = b.text) : a = b :=
  Option.some.inj (ha.parses.symm.trans ((congrArg (fun text => parseSource text.toList) h).trans
    hb.parses))

section written
variable {walk : Walk} {continuity : Option Continuity} {claim : Claim} {found : Plan}
  {citation : Citation}

theorem mem_spans {path : String} {span : Spans.Span} : span ∈ found.spans path ↔
    ∃ one ∈ found.locations, one.path = path ∧ span = (one.extent.start, one.extent.stop) := by
  simp only [Plan.spans, List.mem_map, List.mem_filter, decide_eq_true_eq, and_assoc,
    eq_comm (a := span)]

theorem mem_generated : citation ∈ generated found ↔ ∃ path ∈ found.reached,
    ∃ range ∈ Spans.merged (found.spans path),
      citation = ⟨sourceText path range.1 range.2, path, range.1, range.2⟩ := by
  simp only [generated, List.mem_flatMap, List.mem_map, mem_sortedPaths, eq_comm (a := citation)]

theorem mem_carried : citation ∈ carried walk claim.citations found ↔
    citation ∈ claim.citations ∧ citation.path ∉ found.reached ∧
      (thirdParty walk citation = true ∨
        (walk.lines citation.path).isSome = true ∧ found.relocated = false) := by
  simp only [carried, thirdParty, List.mem_filter, Bool.and_eq_true, Bool.not_eq_true',
    Bool.or_eq_true, List.contains_eq_mem, decide_eq_false_iff_not]

theorem not_mem_generated (h : citation ∈ carried walk claim.citations found) :
    citation ∉ generated found := by
  intro hgenerated
  obtain ⟨path, hpath, range, -, rfl⟩ := mem_generated.mp hgenerated
  exact (mem_carried.mp h).2.1 hpath

section found
variable (hfound : Found walk continuity claim found) (hgrammar : walk.grammar.InFile)
include hfound

theorem live_reached {path : String} (h : path ∈ found.reached) :
    ∃ lines, walk.lines path = some lines := by
  obtain ⟨one, hone, rfl⟩ := List.mem_map.mp h
  exact exists_lines (List.ne_nil_of_mem (hfound.held one hone).2)

theorem plainPath_reached (hspelt : Spelt walk continuity claim) {path : String}
    (h : path ∈ found.reached) : PlainPath path := by
  obtain ⟨one, hone, rfl⟩ := List.mem_map.mp h
  rcases hfound.sources one hone with ⟨cited, hcited, hpath, -⟩ | ⟨hretarget, -⟩
  · rw [← hpath]
    exact (hspelt.sources cited hcited).plainPath
  · exact hspelt.destinations _ (hfound.held one hone).1 one hretarget

/-- What is carried over is neither reached nor gone. -/
theorem carried_eq : carried walk claim.citations found = claim.citations.filter fun citation =>
    !found.reached.contains citation.path && !vanished walk citation := by
  refine List.filter_congr fun citation hcitation => ?_
  cases hlines : walk.lines citation.path with
  | none => simp [vanished, hlines]
  | some lines =>
    have hrelocated : found.relocated = false := by
      by_contra hmoved
      have hgone := hfound.gone (by simpa using hmoved) citation hcitation
      rw [hlines] at hgone
      cases hgone
    simp [vanished, hlines, hrelocated]

/-- A cited file that holds an anchor is reached. -/
theorem extents_of_not_reached (h : citation ∈ claim.citations)
    (hreached : citation.path ∉ found.reached) {anchor : Anchor} (hanchor : anchor ∈ claim.anchors) :
    walk.extents citation.path anchor = [] := by
  by_contra hheld
  obtain ⟨extent, -, hmem⟩ := hfound.every anchor hanchor citation h hheld
  exact hreached (List.mem_map.mpr ⟨_, hmem, rfl⟩)

include hgrammar

theorem inFile_spans {path : String} {span : Spans.Span} (h : span ∈ found.spans path) :
    ∃ lines, walk.lines path = some lines ∧ InFile lines span.1 span.2 := by
  obtain ⟨one, hone, rfl, rfl⟩ := mem_spans.mp h
  exact inFile_extents hgrammar (hfound.held one hone).2

theorem fused_spans (path : String) :
    Spans.Fused (found.spans path) (Spans.merged (found.spans path)) :=
  Spans.fused_merged fun span hspan => by
    obtain ⟨lines, -, hin⟩ := inFile_spans hfound hgrammar hspan
    exact hin.ordered

/-- A generated source is a range of its file. -/
theorem inFile_generated (h : citation ∈ generated found) :
    ∃ lines, walk.lines citation.path = some lines ∧ InFile lines citation.start citation.stop := by
  obtain ⟨path, -, range, hrange, rfl⟩ := mem_generated.mp h
  have hfused := fused_spans hfound hgrammar path
  obtain ⟨first, hfirst, hstart⟩ := hfused.starts range hrange
  obtain ⟨last, hlast, hstop⟩ := hfused.stops range hrange
  obtain ⟨lines, hlines, hin⟩ := inFile_spans hfound hgrammar hfirst
  obtain ⟨lines', hlines', hin'⟩ := inFile_spans hfound hgrammar hlast
  obtain rfl : lines' = lines := Option.some.inj (hlines'.symm.trans hlines)
  have hordered := hfused.apart.ordered range hrange
  refine ⟨lines', hlines, ?_, hordered, ?_⟩
  · show 1 ≤ range.1
    rw [← hstart]
    exact hin.opened
  · show range.2 ≤ lines'.length
    rw [← hstop]
    exact hin'.inside

/-- What was found lies in a generated source. -/
theorem generated_of_location {one : ResolvedLocation} (h : one ∈ found.locations) :
    ∃ cited ∈ generated found, cited.path = one.path ∧ cited.start ≤ one.extent.start ∧
      one.extent.stop ≤ cited.stop := by
  obtain ⟨range, hrange, hlow, hhigh⟩ := (fused_spans hfound hgrammar one.path).within
    (one.extent.start, one.extent.stop) (mem_spans.mpr ⟨one, h, rfl, rfl⟩)
  exact ⟨_, mem_generated.mpr ⟨one.path, List.mem_map.mpr ⟨one, h, rfl⟩, range, hrange, rfl⟩,
    rfl, hlow, hhigh⟩

theorem spelled_written (hspelt : Spelt walk continuity claim)
    (h : citation ∈ written walk claim.citations found) : Spelled citation := by
  rcases List.mem_append.mp h with h | h
  · obtain ⟨lines, -, hin⟩ := inFile_generated hfound hgrammar h
    obtain ⟨path, hpath, range, -, rfl⟩ := mem_generated.mp h
    exact spelled_sourceText (plainPath_reached hfound hspelt hpath) hin.ordered
  · exact hspelt.sources citation (mem_carried.mp h).1

end found

end written

/-! ## The rewritten claim -/

section rewriting
variable {walk : Walk} {continuity : Option Continuity} {claim : Claim} {found : Plan}
  {repair : Repair} (hgrammar : walk.grammar.InFile) (hspelt : Spelt walk continuity claim)
  (hfound : Found walk continuity claim found)
  (hsources : repair.sources = (written walk claim.citations found).map Citation.text)
include hgrammar hspelt hfound hsources

theorem list_eq : repair.list =
    (written walk claim.citations found).eraseDups.map Citation.text := by
  rw [Repair.list, hsources]
  exact Deduped.eraseDups_map fun a ha b hb =>
    (spelled_written hfound hgrammar hspelt ha).text_injective
      (spelled_written hfound hgrammar hspelt hb)

theorem rewritten_eq : rewritten claim repair =
    ({ claim with citations := (written walk claim.citations found).eraseDups }, []) := by
  rw [rewritten, list_eq hgrammar hspelt hfound hsources, citationsIn_joined fun c hc =>
    spelled_written hfound hgrammar hspelt (List.mem_eraseDups.mp hc)]

theorem mem_rewritten {citation : Citation} :
    citation ∈ (rewritten claim repair).1.citations ↔
      citation ∈ generated found ∨ citation ∈ carried walk claim.citations found := by
  rw [rewritten_eq hgrammar hspelt hfound hsources]
  show citation ∈ (written walk claim.citations found).eraseDups ↔ _
  rw [List.mem_eraseDups, written, List.mem_append]

/-- Some source of the rewritten claim has the anchor. -/
theorem exists_rewritten {anchor : Anchor} (h : anchor ∈ claim.anchors) :
    ∃ citation ∈ (rewritten claim repair).1.citations,
      walk.extents citation.path anchor ≠ [] := by
  obtain ⟨one, hone, rfl⟩ := hfound.placed anchor h
  obtain ⟨cited, hcited, hpath, -⟩ := generated_of_location hfound hgrammar hone
  refine ⟨cited, (mem_rewritten hgrammar hspelt hfound hsources).mpr (.inl hcited), ?_⟩
  rw [hpath]
  exact List.ne_nil_of_mem (hfound.held one hone).2

/-- The rewritten claim cites a file that is there, so no anchor of it is relocated. -/
theorem spelt_rewritten : Spelt walk continuity (rewritten claim repair).1 := by
  constructor
  · intro citation hcitation
    rw [rewritten_eq hgrammar hspelt hfound hsources] at hcitation
    exact spelled_written hfound hgrammar hspelt (List.mem_eraseDups.mp hcitation)
  · intro anchor hanchor location hretarget
    obtain ⟨citation, hcitation, hheld⟩ :=
      exists_rewritten hgrammar hspelt hfound hsources (show anchor ∈ claim.anchors from hanchor)
    exact absurd (extents_none ((retarget_eq_ok hretarget).1 citation hcitation)) hheld

end rewriting

/-! ## Planning again -/

/-- In every cited file that holds an anchor, each citation means one extent of it, inside what
is cited of the file. -/
def Reproducible (walk : Walk) (claim : Claim) : Prop :=
  ∀ anchor ∈ claim.anchors, ∀ citation ∈ claim.citations,
    walk.extents citation.path anchor ≠ [] →
    ∃ extent, chosen (walk.extents citation.path anchor) citation = some extent ∧
      ∃ wide ∈ claim.citations, wide.path = citation.path ∧ wide.start ≤ extent.start ∧
        extent.stop ≤ wide.stop

section again
variable {walk : Walk} {continuity : Option Continuity} {claim : Claim} {found again : Plan}
  {repair repair' : Repair}
  (hgrammar : walk.grammar.InFile) (hspelt : Spelt walk continuity claim)
  (hfound : Found walk continuity claim found)
  (hsources : repair.sources = (written walk claim.citations found).map Citation.text)
include hgrammar hspelt hfound hsources

/-- A source of the rewritten claim that has an anchor was generated. -/
theorem generated_of_held {citation : Citation} {anchor : Anchor} (hanchor : anchor ∈ claim.anchors)
    (h : citation ∈ (rewritten claim repair).1.citations)
    (hheld : walk.extents citation.path anchor ≠ []) : citation ∈ generated found := by
  rcases (mem_rewritten hgrammar hspelt hfound hsources).mp h with h | h
  · exact h
  · obtain ⟨hcited, hreached, -⟩ := mem_carried.mp h
    exact absurd (extents_of_not_reached hfound hcited hreached hanchor) hheld

section second
variable (hagain : Found walk continuity (rewritten claim repair).1 again)
include hagain

/-- Nothing is relocated again. -/
theorem location_of_again {one : ResolvedLocation} (h : one ∈ again.locations) :
    ∃ citation ∈ generated found, citation.path = one.path ∧
      chosen (walk.extents citation.path one.anchor) citation = some one.extent := by
  obtain ⟨hanchor, hextent⟩ := hagain.held one h
  rcases hagain.sources one h with ⟨citation, hcitation, hpath, hchosen⟩ | ⟨-, hgone⟩
  · refine ⟨citation, generated_of_held hgrammar hspelt hfound hsources hanchor hcitation ?_,
      hpath, hchosen⟩
    rw [hpath]
    exact List.ne_nil_of_mem hextent
  · obtain ⟨citation, hcitation, hheld⟩ :=
      exists_rewritten hgrammar hspelt hfound hsources (show one.anchor ∈ claim.anchors from hanchor)
    exact absurd (extents_none (hgone citation hcitation)) hheld

/-- What was found is found again. -/
theorem location_again {one : ResolvedLocation} (h : one ∈ found.locations) :
    one ∈ again.locations := by
  obtain ⟨hanchor, hextent⟩ := hfound.held one h
  obtain ⟨cited, hcited, hpath, hlow, hhigh⟩ := generated_of_location hfound hgrammar h
  have hmem := (mem_rewritten hgrammar hspelt hfound hsources).mpr (.inl hcited)
  obtain ⟨extent, hchosen, hlocation⟩ := hagain.every one.anchor hanchor cited hmem
    (by rw [hpath]; exact List.ne_nil_of_mem hextent)
  obtain ⟨lines, -, hin⟩ := inFile_extents hgrammar hextent
  have hordered := hin.ordered
  -- it overlaps the range that was generated for it, so it is chosen there
  have hoverlaps : one.extent.overlaps cited.start cited.stop = true := by
    simp only [Extent.overlaps, Bool.and_eq_true, decide_eq_true_eq]
    omega
  rw [hpath] at hchosen hlocation
  obtain rfl := chosen_eq hchosen hextent hoverlaps
  exact hlocation

theorem reached_again {path : String} : path ∈ again.reached ↔ path ∈ found.reached := by
  constructor
  · intro h
    obtain ⟨one, hone, rfl⟩ := List.mem_map.mp h
    obtain ⟨citation, hcitation, hpath, -⟩ :=
      location_of_again hgrammar hspelt hfound hsources hagain hone
    obtain ⟨reached, hreached, range, -, rfl⟩ := mem_generated.mp hcitation
    rwa [← hpath]
  · intro h
    obtain ⟨one, hone, rfl⟩ := List.mem_map.mp h
    exact List.mem_map.mpr
      ⟨one, location_again hgrammar hspelt hfound hsources hagain hone, rfl⟩

/-- The ranges are those that were written, when nothing chosen leaves them. -/
theorem merged_again (hreproducible : Reproducible walk (rewritten claim repair).1)
    (path : String) : Spans.merged (again.spans path) = Spans.merged (found.spans path) := by
  refine Spans.merged_eq (fun span hspan => ?_) (fun span hspan => ?_) fun span hspan => ?_
  · obtain ⟨lines, -, hin⟩ := inFile_spans hagain hgrammar hspan
    exact hin.ordered
  · obtain ⟨one, hone, hpath, rfl⟩ := mem_spans.mp hspan
    exact mem_spans.mpr ⟨one, location_again hgrammar hspelt hfound hsources hagain hone, hpath, rfl⟩
  · obtain ⟨one, hone, hpath, rfl⟩ := mem_spans.mp hspan
    obtain ⟨hanchor, hextent⟩ := hagain.held one hone
    obtain ⟨citation, hcitation, hpath', hchosen⟩ :=
      location_of_again hgrammar hspelt hfound hsources hagain hone
    have hheld : walk.extents citation.path one.anchor ≠ [] := by
      rw [hpath']
      exact List.ne_nil_of_mem hextent
    obtain ⟨extent, hchosen', wide, hwide, hsame, hlow, hhigh⟩ := hreproducible one.anchor hanchor
      citation ((mem_rewritten hgrammar hspelt hfound hsources).mpr (.inl hcitation)) hheld
    obtain rfl : extent = one.extent := Option.some.inj (hchosen'.symm.trans hchosen)
    have hgenerated := generated_of_held hgrammar hspelt hfound hsources hanchor hwide
      (by rw [hsame]; exact hheld)
    obtain ⟨reached, -, range, hrange, rfl⟩ := mem_generated.mp hgenerated
    have hreached : reached = path := hsame.trans (hpath'.trans hpath)
    exact ⟨range, hreached ▸ hrange, hlow, hhigh⟩

/-- The second list. -/
theorem written_again (hreproducible : Reproducible walk (rewritten claim repair).1) :
    written walk (rewritten claim repair).1.citations again =
      generated found ++ (carried walk claim.citations found).eraseDups := by
  have hreached := fun path => @reached_again _ _ _ _ again _ hgrammar hspelt hfound hsources hagain path
  have hgenerated : generated again = generated found := by
    have hpaths : sortedPaths again.reached = sortedPaths found.reached :=
      Deduped.sorted_congr (· ≤ ·) hreached
    rw [generated, generated, hpaths, List.flatMap_def, List.flatMap_def]
    congr 1
    refine List.map_congr_left fun path _ => ?_
    rw [merged_again hgrammar hspelt hfound hsources hagain hreproducible path]
  have hcarried : carried walk (rewritten claim repair).1.citations again =
      (carried walk claim.citations found).eraseDups := by
    rw [carried_eq hagain, rewritten_eq hgrammar hspelt hfound hsources]
    show (List.filter _ (written walk claim.citations found).eraseDups) = _
    rw [written, Deduped.eraseDups_append_of_disjoint fun _ => not_mem_generated,
      List.filter_append]
    -- what was generated is reached, and what was carried is neither reached nor gone
    have hnone : (generated found).eraseDups.filter (fun citation =>
        !again.reached.contains citation.path && !vanished walk citation) = [] := by
      rw [List.filter_eq_nil_iff]
      intro citation hcitation
      obtain ⟨path, hpath, range, -, rfl⟩ := mem_generated.mp (List.mem_eraseDups.mp hcitation)
      have hagainReached := (hreached path).mpr hpath
      simp [hagainReached]
    have hall : (carried walk claim.citations found).eraseDups.filter (fun citation =>
        !again.reached.contains citation.path && !vanished walk citation) =
          (carried walk claim.citations found).eraseDups := by
      rw [List.filter_eq_self]
      intro citation hcitation
      have hmem := List.mem_eraseDups.mp hcitation
      rw [carried_eq hfound] at hmem
      have hkept := (List.mem_filter.mp hmem).2
      have hsame : again.reached.contains citation.path = found.reached.contains citation.path := by
        rw [Bool.eq_iff_iff, List.contains_iff_mem, List.contains_iff_mem, hreached]
      rwa [hsame]
    rw [hnone, hall, List.nil_append]
  rw [written, hgenerated, hcarried]

end second

/-- Planning again from the rewritten claim gives the same list exactly when the claim is
reproducible. -/
theorem again_iff : (∃ again, plan walk walk.locate continuity (rewritten claim repair).1 =
      .ok again ∧ again.list = repair.list) ↔
    Reproducible walk (rewritten claim repair).1 := by
  have hspelt' : Spelt walk continuity (rewritten claim repair).1 :=
    spelt_rewritten hgrammar hspelt hfound hsources
  constructor
  · rintro ⟨again, hplan, hlist⟩ anchor hanchor citation hcitation hheld
    obtain ⟨found', hfound', hsources'⟩ := plan_eq_ok hplan
    obtain ⟨extent, hchosen, hlocation⟩ := hfound'.every anchor hanchor citation hcitation hheld
    obtain ⟨wide, hwide, hpath, hlow, hhigh⟩ :=
      generated_of_location hfound' hgrammar hlocation
    refine ⟨extent, hchosen, wide, ?_, hpath, hlow, hhigh⟩
    have hwritten : wide ∈ written walk (rewritten claim repair).1.citations found' :=
      List.mem_append_left _ hwide
    -- its text is in the list that was written first, so it is a source of that list
    have htext : wide.text ∈ repair.list := by
      rw [← hlist, list_eq hgrammar hspelt' hfound' hsources']
      exact List.mem_map.mpr ⟨wide, List.mem_eraseDups.mpr hwritten, rfl⟩
    rw [list_eq hgrammar hspelt hfound hsources] at htext
    obtain ⟨first, hfirst, hsame⟩ := List.mem_map.mp htext
    have hspelled := spelled_written hfound hgrammar hspelt (List.mem_eraseDups.mp hfirst)
    obtain rfl := hspelled.text_injective (spelled_written hfound' hgrammar hspelt' hwritten) hsame
    rw [rewritten_eq hgrammar hspelt hfound hsources]
    exact hfirst
  · intro hreproducible
    have hplaced : ∀ anchor ∈ (rewritten claim repair).1.anchors, ∃ result,
        place walk walk.locate continuity (rewritten claim repair).1.citations anchor =
          .ok result := by
      intro anchor hanchor
      rw [place_ok_iff (exists_rewritten hgrammar hspelt hfound hsources hanchor)]
      intro citation hcitation hheld
      obtain ⟨extent, hchosen, -⟩ := hreproducible anchor hanchor citation hcitation hheld
      exact ⟨extent, hchosen⟩
    obtain ⟨placed, hmapM⟩ := Attempts.exists_mapM_eq_ok.mpr hplaced
    obtain ⟨again, hplan⟩ : ∃ again,
        plan walk walk.locate continuity (rewritten claim repair).1 = .ok again :=
      ⟨_, by rw [plan, hmapM]; rfl⟩
    obtain ⟨found', hfound', hsources'⟩ := plan_eq_ok hplan
    refine ⟨again, hplan, ?_⟩
    rw [list_eq hgrammar hspelt' hfound' hsources', list_eq hgrammar hspelt hfound hsources,
      written_again hgrammar hspelt hfound hsources hfound' hreproducible, written,
      Deduped.eraseDups_append_of_disjoint fun _ => not_mem_generated,
      Deduped.eraseDups_append_of_disjoint
        fun _ hcitation => not_mem_generated (List.mem_eraseDups.mp hcitation),
      Deduped.eraseDups_of_nodup (Deduped.nodup_eraseDups (carried walk claim.citations found))]

end again

/-! ## Settled -/

/-- The ranges of an anchor pass the checker's test, wherever they are found. -/
def Sound (walk : Walk) (anchor : Anchor) : Prop :=
  ∀ path lines, walk.lines path = some lines → ∀ extent ∈ walk.extents path anchor,
    Holds anchor lines extent

/-- A live source of a claim that runs past its file, and holds none of the anchors. -/
def Overrun (walk : Walk) (claim : Claim) (citation : Citation) : Prop :=
  citation ∈ claim.citations ∧ outOfBounds walk citation = true ∧
    ∀ anchor ∈ claim.anchors, walk.extents citation.path anchor = []

/-- What a plan that does not decline leaves behind. -/
structure Settles (walk : Walk) (continuity : Option Continuity) (claim : Claim)
    (repair : Repair) : Prop where
  readable : (rewritten claim repair).2 = []
  thirdParties : ∀ citation ∈ claim.citations, thirdParty walk citation = true →
    citation ∈ (rewritten claim repair).1.citations
  present : ∀ citation ∈ (rewritten claim repair).1.citations, vanished walk citation = false
  bounds : ∀ citation ∈ (rewritten claim repair).1.citations, outOfBounds walk citation = true →
    Overrun walk claim citation
  held : ∀ anchor ∈ claim.anchors, Sound walk anchor →
    anchor ∉ unsatisfied walk (rewritten claim repair).1
  settled : (∀ anchor ∈ claim.anchors, Sound walk anchor) →
    (failing walk (rewritten claim repair).1 = true ↔ ∃ citation, Overrun walk claim citation)
  again : (∃ again, plan walk walk.locate continuity (rewritten claim repair).1 = .ok again ∧
    again.list = repair.list) ↔ Reproducible walk (rewritten claim repair).1
  quiet : Reproducible walk (rewritten claim repair).1 → ∀ relative line projection,
    decideRepair relative line (joined repair.list) projection
      (plan walk walk.locate continuity (rewritten claim repair).1) = .unchanged

section settles
variable {walk : Walk} {continuity : Option Continuity} {claim : Claim} {found : Plan}
  {repair : Repair} (hgrammar : walk.grammar.InFile) (hspelt : Spelt walk continuity claim)
  (hfound : Found walk continuity claim found)
  (hsources : repair.sources = (written walk claim.citations found).map Citation.text)
include hgrammar hspelt hfound hsources

theorem overrun_of_rewritten {citation : Citation}
    (h : citation ∈ (rewritten claim repair).1.citations)
    (hbounds : outOfBounds walk citation = true) : Overrun walk claim citation := by
  rcases (mem_rewritten hgrammar hspelt hfound hsources).mp h with h | h
  · obtain ⟨lines, hlines, hin⟩ := inFile_generated hfound hgrammar h
    have hinside := hin.inside
    rw [outOfBounds, hlines, Option.any_some, decide_eq_true_eq] at hbounds
    omega
  · obtain ⟨hcited, hreached, -⟩ := mem_carried.mp h
    exact ⟨hcited, hbounds, fun anchor => extents_of_not_reached hfound hcited hreached⟩

/-- A file that no anchor is in is carried over as it was cited. -/
theorem rewritten_of_overrun {citation : Citation} (h : Overrun walk claim citation) :
    citation ∈ (rewritten claim repair).1.citations := by
  obtain ⟨hcited, hbounds, hnone⟩ := h
  refine (mem_rewritten hgrammar hspelt hfound hsources).mpr (.inr ?_)
  rw [carried_eq hfound, List.mem_filter]
  refine ⟨hcited, ?_⟩
  have hreached : citation.path ∉ found.reached := by
    intro hreached
    obtain ⟨one, hone, hpath⟩ := List.mem_map.mp hreached
    obtain ⟨hanchor, hextent⟩ := hfound.held one hone
    rw [hpath, hnone one.anchor hanchor] at hextent
    cases hextent
  cases hlines : walk.lines citation.path with
  | none => simp [outOfBounds, hlines] at hbounds
  | some lines => simp [hreached, vanished, hlines]

theorem held_rewritten {anchor : Anchor} (hanchor : anchor ∈ claim.anchors)
    (hsound : Sound walk anchor) : anchor ∉ unsatisfied walk (rewritten claim repair).1 := by
  obtain ⟨one, hone, rfl⟩ := hfound.placed anchor hanchor
  obtain ⟨cited, hcited, hpath, hlow, hhigh⟩ := generated_of_location hfound hgrammar hone
  obtain ⟨-, hextent⟩ := hfound.held one hone
  obtain ⟨lines, hlines⟩ := exists_lines (List.ne_nil_of_mem hextent)
  have hheld := (hsound one.path lines hlines one.extent hextent).wider (plain_lines hlines)
    hlow hhigh
  have hcites : cites walk one.anchor cited = true := by
    rw [cites, hpath, hlines]
    exact hheld
  intro hunheld
  unfold unsatisfied at hunheld
  split at hunheld
  · cases hunheld
  · have hnone := (List.mem_filter.mp hunheld).2
    rw [Bool.not_eq_true', ← Bool.not_eq_true, List.any_eq_true] at hnone
    exact hnone ⟨cited, (mem_rewritten hgrammar hspelt hfound hsources).mpr (.inl hcited), hcites⟩

theorem present_rewritten {citation : Citation}
    (h : citation ∈ (rewritten claim repair).1.citations) : vanished walk citation = false := by
  rcases (mem_rewritten hgrammar hspelt hfound hsources).mp h with h | h
  · obtain ⟨lines, hlines, -⟩ := inFile_generated hfound hgrammar h
    simp [vanished, hlines]
  · rw [carried_eq hfound] at h
    have hkept := (List.mem_filter.mp h).2
    simp only [Bool.and_eq_true, Bool.not_eq_true'] at hkept
    exact hkept.2

theorem failing_rewritten (hsound : ∀ anchor ∈ claim.anchors, Sound walk anchor) :
    failing walk (rewritten claim repair).1 = true ↔ ∃ citation, Overrun walk claim citation := by
  have hheld : unsatisfied walk (rewritten claim repair).1 = [] := by
    refine List.eq_nil_iff_forall_not_mem.mpr fun anchor hunheld => ?_
    have hanchor : anchor ∈ claim.anchors := by
      unfold unsatisfied at hunheld
      split at hunheld
      · cases hunheld
      · exact List.mem_of_mem_filter hunheld
    exact held_rewritten hgrammar hspelt hfound hsources hanchor (hsound anchor hanchor) hunheld
  have hpresent : (rewritten claim repair).1.citations.any (vanished walk) = false := by
    rw [List.any_eq_false]
    intro citation hcitation
    rw [present_rewritten hgrammar hspelt hfound hsources hcitation]
    decide
  rw [failing, hheld, hpresent]
  simp only [ne_eq, not_true_eq_false, decide_false, Bool.or_false, List.any_eq_true]
  constructor
  · rintro ⟨citation, hcitation, hbounds⟩
    exact ⟨citation, overrun_of_rewritten hgrammar hspelt hfound hsources hcitation hbounds⟩
  · rintro ⟨citation, hoverrun⟩
    exact ⟨citation, rewritten_of_overrun hgrammar hspelt hfound hsources hoverrun, hoverrun.2.1⟩

theorem thirdParty_rewritten {citation : Citation} (h : citation ∈ claim.citations)
    (hthird : thirdParty walk citation = true) :
    citation ∈ (rewritten claim repair).1.citations := by
  refine (mem_rewritten hgrammar hspelt hfound hsources).mpr (.inr ?_)
  refine mem_carried.mpr ⟨h, fun hreached => ?_, .inl hthird⟩
  obtain ⟨lines, hlines⟩ := live_reached hfound hreached
  simp [thirdParty, hlines] at hthird

theorem settles_of_found : Settles walk continuity claim repair := by
  refine ⟨by rw [rewritten_eq hgrammar hspelt hfound hsources],
    fun _ => thirdParty_rewritten hgrammar hspelt hfound hsources,
    fun _ => present_rewritten hgrammar hspelt hfound hsources,
    fun _ => overrun_of_rewritten hgrammar hspelt hfound hsources,
    fun _ => held_rewritten hgrammar hspelt hfound hsources,
    failing_rewritten hgrammar hspelt hfound hsources,
    again_iff hgrammar hspelt hfound hsources, ?_⟩
  intro hreproducible relative line projection
  have hagain := @again_iff walk continuity claim found repair hgrammar hspelt hfound hsources
  obtain ⟨again, hplan, hlist⟩ := hagain.mpr hreproducible
  rw [hplan, decideRepair, hlist]
  exact if_pos rfl

end settles

/-- Planning a repair reports a refusal of one of the anchors, or leaves the claim settled but
for what runs past a file that holds none of them. -/
theorem plan_settles (walk : Walk) (continuity : Option Continuity) (claim : Claim)
    (hgrammar : walk.grammar.InFile) (hspelt : Spelt walk continuity claim) :
    match plan walk walk.locate continuity claim with
    | .ok repair => Settles walk continuity claim repair
    | .error decline => decline.anchor ∈ claim.anchors ∧ ∀ relative was projection,
      decideRepair relative claim.line was projection (.error decline) =
        .refused ⟨relative, claim.line, decline.code.text, some decline.anchor.written,
          decline.message⟩ := by
  cases hplan : plan walk walk.locate continuity claim with
  | ok repair =>
    obtain ⟨found, hfound, hsources⟩ := plan_eq_ok hplan
    exact settles_of_found hgrammar hspelt hfound hsources
  | error decline =>
    refine ⟨?_, fun relative was projection => rfl⟩
    obtain h | ⟨placed, -, h⟩ := Attempts.bind_eq_error.mp hplan
    · obtain ⟨anchor, hanchor, h⟩ := Attempts.mapM_eq_error h
      rw [place_eq_error h]
      exact hanchor
    · cases h

/-! ## Claims about two documents -/

/-- Two pages. -/
def pages : Tree := fun path =>
  if path = "a.md" then some [1] else if path = "b.md" then some [2] else none

/-- A repository in which nothing has changed. -/
def pageRepository (working : Tree) (entries : String → Bool) : Repository :=
  { working := working, head := working, commits := fun _ => working, entries := entries }

/-- A walk over the two pages. -/
def pagesWalk : Walk where
  trees :=
    { code := pageRepository pages fun first => (pages first).isSome
      memory := pageRepository (fun _ => none) fun _ => false }
  decode bytes := if bytes = [1] then "# A\n# X\n# B\n# A".toList else "text".toList
  grammar := .plain
  parsed _ := false
  codeFiles := ["a.md"]
  codeFiles_found := by simp [pageRepository, Trees.resolve, pages]

/-- The second source runs past a file that does not have the heading. -/
def overrunClaim : Claim :=
  ⟨3, [⟨.heading, "# B"⟩], [⟨"a.md:1-1", "a.md", 1, 1⟩, ⟨"b.md:9-9", "b.md", 9, 9⟩]⟩

/-- The first heading is in the file twice. -/
def choiceClaim : Claim :=
  ⟨3, [⟨.heading, "# A"⟩, ⟨.heading, "# B"⟩], [⟨"a.md:1-1", "a.md", 1, 1⟩]⟩

theorem inFile_plain : Grammar.plain.InFile :=
  ⟨fun _ _ _ h => (List.not_mem_nil h).elim, fun _ _ _ h => (List.not_mem_nil h).elim⟩

theorem plainPath_page {path : String} (h : path = "a.md" ∨ path = "b.md") : PlainPath path := by
  rcases h with rfl | rfl
  · exact ⟨by decide, inert_of_all (by decide), by decide⟩
  · exact ⟨by decide, inert_of_all (by decide), by decide⟩

theorem spelt_overrunClaim : Spelt pagesWalk none overrunClaim := by
  refine ⟨fun citation hcitation => ?_, fun anchor hanchor location hretarget => ?_⟩
  · rcases List.mem_pair.mp hcitation with rfl | rfl
    · exact spelled_sourceText (plainPath_page (.inl rfl)) (Nat.le_refl 1)
    · exact spelled_sourceText (plainPath_page (.inr rfl)) (Nat.le_refl 9)
  · rw [List.mem_singleton.mp hanchor] at hretarget
    cases hretarget

/-- The heading is found, and the range that runs past its file is kept. -/
def overrunRepair : Repair :=
  ⟨["a.md:3-3", "b.md:9-9"], [⟨⟨.heading, "# B"⟩, "a.md", ⟨3, 3, .headed⟩⟩]⟩

theorem plan_overrunClaim :
    plan pagesWalk pagesWalk.locate none overrunClaim = .ok overrunRepair := by rfl

theorem plan_settles_overrunClaim : Settles pagesWalk none overrunClaim overrunRepair := by
  have h := plan_settles pagesWalk none overrunClaim inFile_plain spelt_overrunClaim
  rwa [plan_overrunClaim] at h

/-- A page has moved to a name with a blank in it. -/
def movedPages (path : String) (working : Bool) : Option Bytes :=
  if path = (if working then "docs/my page.md" else "docs/page.md") then some [1] else none

/-- A repository with a moved page. -/
def movedRepository : Repository where
  working path := movedPages path true
  head path := movedPages path true
  commits _ path := movedPages path false
  entries first := first = "docs"

/-- A walk over the moved page. -/
def movedWalk : Walk where
  trees :=
    { code := movedRepository
      memory := pageRepository (fun _ => none) fun _ => false }
  decode := pagesWalk.decode
  grammar := .plain
  parsed _ := false
  codeFiles := ["docs/my page.md"]
  codeFiles_found := by simp [movedRepository, movedPages, Trees.resolve]

/-- What the claim was verified against. -/
def movedContinuity : Continuity where
  trees := movedWalk.trees
  history := ⟨.ok [], fun _ => .error "", fun _ => false⟩
  codeCommit := .ok
  decode := pagesWalk.decode
  grammar := .plain
  stamp := "c1"

/-- A claim on the moved page. -/
def movedClaim : Claim :=
  ⟨3, [⟨.heading, "# B"⟩], [⟨"docs/page.md:3-3", "docs/page.md", 3, 3⟩]⟩

/-- A repair leaves a range out of bounds, and another cannot be planned again; a third names a
file in a way that is not read back. -/
theorem repair_fails_again :
    (failing pagesWalk overrunClaim = true ∧ ∃ repair,
      plan pagesWalk pagesWalk.locate none overrunClaim = .ok repair ∧
        failing pagesWalk (rewritten overrunClaim repair).1 = true) ∧
    (failing pagesWalk choiceClaim = true ∧ ∃ repair decline,
      plan pagesWalk pagesWalk.locate none choiceClaim = .ok repair ∧
        plan pagesWalk pagesWalk.locate none (rewritten choiceClaim repair).1 =
          .error decline) ∧
    failing movedWalk movedClaim = true ∧ ∃ repair,
      plan movedWalk movedWalk.locate (some movedContinuity) movedClaim = .ok repair ∧
        repair.sources = ["docs/my page.md:3-3"] ∧ (rewritten movedClaim repair).2 ≠ [] := by
  refine ⟨⟨by decide, overrunRepair, by rfl, by decide⟩, ⟨by decide, ?_⟩, by decide, ?_⟩
  · exact ⟨⟨["a.md:1-1", "a.md:3-3"], _⟩, _, by rfl, by rfl⟩
  · exact ⟨⟨["docs/my page.md:3-3"], _⟩, by rfl, rfl, by decide⟩

end AgentsRemember.Citations
