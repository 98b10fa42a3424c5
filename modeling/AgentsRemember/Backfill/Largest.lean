import AgentsRemember.Backfill.Selection

/-!
# Backfill — Largest

The selection gives every memory commit of a carriable row a code commit of
one of its own rows, and no other way of doing so names more code commits.
-/

namespace AgentsRemember.Backfill

variable {candidates : List LedgerRow}

/-- A trailer for every memory commit of a row, from one of its own rows. -/
structure Assignment (candidates : List LedgerRow) (d : List (String × String)) : Prop where
  keys : (d.map Prod.fst).Nodup
  covers : ∀ memory, memory ∈ d.map Prod.fst ↔ ∃ row ∈ candidates, row.memoryCommit = memory
  own : ∀ memory code, (memory, code) ∈ d → ⟨code, memory⟩ ∈ candidates

/-! ## The edges of the matching -/

theorem eq_row_iff {row : LedgerRow} {code memory : String} :
    ⟨code, memory⟩ = row ↔ row.codeCommit = code ∧ row.memoryCommit = memory := by
  obtain ⟨code', memory'⟩ := row
  rw [LedgerRow.mk.injEq, eq_comm, eq_comm (a := memory)]

theorem mem_enroll (d : List (String × List String)) (row : LedgerRow) (code memory : String) :
    memory ∈ ((enroll d row).lookup code).getD [] ↔
      memory ∈ (d.lookup code).getD [] ∨ ⟨code, memory⟩ = row := by
  simp only [enroll]
  rw [Keyed.getD_setDefault_nil, eq_row_iff]
  split
  · rename_i hin
    rw [Keyed.getD_setDefault_nil]
    exact ⟨.inl, fun h => h.elim id fun ⟨hcode, hmem⟩ => hcode ▸ hmem ▸ hin⟩
  · rw [Keyed.lookup_attach, Keyed.getD_setDefault_nil, List.mem_append]
    by_cases hcode : row.codeCommit = code
    · simp [hcode, eq_comm]
    · simp [hcode]

theorem mem_keys_enroll (d : List (String × List String)) (row : LedgerRow) (code : String) :
    code ∈ (enroll d row).map Prod.fst ↔ code ∈ d.map Prod.fst ∨ code = row.codeCommit := by
  simp only [enroll]
  split
  · exact Keyed.mem_keys_setDefault d _ _ code
  · unfold Keyed.attach
    rw [Keyed.mem_keys_set, Keyed.mem_keys_setDefault, or_assoc, or_self]

theorem nodup_keys_enroll {d : List (String × List String)} (hd : (d.map Prod.fst).Nodup)
    (row : LedgerRow) : ((enroll d row).map Prod.fst).Nodup := by
  simp only [enroll]
  split
  · exact Keyed.nodup_keys_setDefault hd _ _
  · exact Keyed.nodup_keys_set (Keyed.nodup_keys_setDefault hd _ _) _ _

/-- What the rows enrolled say, and that no code commit is entered twice. -/
theorem foldl_enroll (rows : List LedgerRow) :
    ((rows.foldl enroll []).map Prod.fst).Nodup ∧
      (∀ code, code ∈ (rows.foldl enroll []).map Prod.fst ↔ ∃ row ∈ rows, row.codeCommit = code) ∧
      ∀ code memory, memory ∈ ((rows.foldl enroll []).lookup code).getD [] ↔
        ⟨code, memory⟩ ∈ rows := by
  induction rows using List.reverseRecOn with
  | nil => simp
  | append_singleton rows row ih =>
    obtain ⟨hnodup, hkeys, hmem⟩ := ih
    rw [List.foldl_append]
    refine ⟨nodup_keys_enroll hnodup row, ?_, ?_⟩
    · intro code
      show code ∈ (enroll _ row).map Prod.fst ↔ _
      rw [mem_keys_enroll, hkeys]
      simp only [List.mem_append, List.mem_singleton, or_and_right, exists_or, exists_eq_left]
      rw [eq_comm (a := code)]
    · intro code memory
      show memory ∈ ((enroll _ row).lookup code).getD [] ↔ _
      rw [mem_enroll, hmem, List.mem_append, List.mem_singleton]

/-- The memory commits a code commit may be paired with. -/
def edgesOf (candidates : List LedgerRow) (code : String) : List String :=
  ((byCode candidates).lookup code).getD []

theorem mem_edgesOf {code memory : String} :
    memory ∈ edgesOf candidates code ↔ ⟨code, memory⟩ ∈ candidates := by
  have hmem := (foldl_enroll candidates.reverse).2.2 code memory
  rw [List.mem_reverse] at hmem
  rw [← hmem, edgesOf, byCode, Keyed.lookup_map]
  cases (candidates.reverse.foldl enroll []).lookup code <;> simp

theorem keys_byCode (candidates : List LedgerRow) : ((byCode candidates).map Prod.fst).Nodup ∧
    ∀ code, code ∈ (byCode candidates).map Prod.fst ↔ ∃ row ∈ candidates, row.codeCommit = code := by
  obtain ⟨hnodup, hkeys, -⟩ := foldl_enroll candidates.reverse
  have hmap : (byCode candidates).map Prod.fst =
      (candidates.reverse.foldl enroll []).map Prod.fst := by simp [byCode]
  rw [hmap]
  exact ⟨hnodup, by simpa using hkeys⟩

/-! ## The owners -/

/-- The matching the code commits reach, offered in the order of the rule. -/
def matched (candidates : List LedgerRow) : List (String × String) :=
  maximumMatching (byCode candidates) (oldestRowRank candidates)

theorem largest_matched (candidates : List LedgerRow) : ∃ codes : List String,
    (∀ code, code ∈ codes ↔ ∃ row ∈ candidates, row.codeCommit = code) ∧
      Matching.Largest (edgesOf candidates) codes (matched candidates) := by
  obtain ⟨hnodup, hkeys⟩ := keys_byCode candidates
  let key := offerKey (byCode candidates) (oldestRowRank candidates)
  have hperm : (Ranked.sortBy key ((byCode candidates).map Prod.fst)).Perm
      ((byCode candidates).map Prod.fst) := List.mergeSort_perm _ _
  refine ⟨Ranked.sortBy key ((byCode candidates).map Prod.fst), fun code => ?_,
    Matching.largest_maximumMatching (hperm.nodup_iff.mpr hnodup)⟩
  rw [hperm.mem_iff]
  exact hkeys code

/-- The first row of a memory commit. -/
theorem lookup_byMemory (memory : String) :
    (byMemory candidates).lookup memory =
      (candidates.map fun row => (row.memoryCommit, row.codeCommit)).lookup memory := by
  have hfold : byMemory candidates =
      (candidates.map fun row => (row.memoryCommit, row.codeCommit)).foldl
        (fun d e => Keyed.setDefault d e.1 e.2) [] := by
    rw [byMemory, List.foldl_map]
  rw [hfold, Keyed.lookup_foldl_setDefault]
  rfl

theorem lookup_ownersOf (memory : String) :
    (ownersOf candidates).lookup memory = ((matched candidates).lookup memory).or
      ((candidates.map fun row => (row.memoryCommit, row.codeCommit)).lookup memory) := by
  rw [ownersOf, Keyed.lookup_foldl_setDefault, lookup_byMemory]
  rfl

theorem mem_of_lookup_rows {memory code : String}
    (h : (candidates.map fun row => (row.memoryCommit, row.codeCommit)).lookup memory = some code) :
    ⟨code, memory⟩ ∈ candidates := by
  obtain ⟨row, hrow, heq⟩ := List.mem_map.mp (Keyed.mem_of_lookup h)
  rw [Prod.mk.injEq] at heq
  rw [← heq.1, ← heq.2]
  exact hrow

/-- Every owner is a row of its memory commit, in both passes. -/
theorem mem_of_lookup_ownersOf {memory code : String}
    (h : (ownersOf candidates).lookup memory = some code) : ⟨code, memory⟩ ∈ candidates := by
  obtain ⟨codes, -, hlargest⟩ := largest_matched candidates
  rw [lookup_ownersOf, Option.or_eq_some_iff] at h
  rcases h with hmatched | ⟨-, hrow⟩
  · exact mem_edgesOf.mp (hlargest.proper.offered memory code hmatched)
  · exact mem_of_lookup_rows hrow

theorem exists_lookup_ownersOf {row : LedgerRow} (hrow : row ∈ candidates) :
    ∃ code, (ownersOf candidates).lookup row.memoryCommit = some code := by
  have hsome : ((candidates.map fun row => (row.memoryCommit, row.codeCommit)).lookup
      row.memoryCommit).isSome :=
    Keyed.lookup_isSome_iff.mpr (by simpa using ⟨row, hrow, rfl⟩)
  rw [← Option.isSome_iff_exists, lookup_ownersOf, Option.isSome_or, hsome, Bool.or_true]

/-! ## What is chosen -/

/-- The code commit chosen for each memory commit. -/
def chosenOf (candidates : List LedgerRow) : List (String × String) :=
  Keyed.dict ((selectPairings candidates).map fun row => (row.memoryCommit, row.codeCommit))

theorem mem_selectPairings {row : LedgerRow} : row ∈ selectPairings candidates ↔
    (ownersOf candidates).lookup row.memoryCommit = some row.codeCommit := by
  rw [selectPairings, List.mem_filter, decide_eq_true_eq]
  exact ⟨And.right, fun h => ⟨mem_of_lookup_ownersOf h, h⟩⟩

/-- The rows that become trailers leave exactly the owners. -/
theorem mem_chosenOf {memory code : String} :
    (memory, code) ∈ chosenOf candidates ↔ (ownersOf candidates).lookup memory = some code := by
  have hsound : ∀ code', (memory, code') ∈ chosenOf candidates →
      (ownersOf candidates).lookup memory = some code' := by
    intro code' h
    obtain ⟨row, hrow, heq⟩ := List.mem_map.mp (Keyed.mem_of_mem_dict h)
    rw [Prod.mk.injEq] at heq
    rw [← heq.1, ← heq.2]
    exact mem_selectPairings.mp hrow
  refine ⟨hsound code, fun hlook => ?_⟩
  have hkey : memory ∈ (chosenOf candidates).map Prod.fst := by
    rw [chosenOf, Keyed.mem_keys_dict]
    have hrow : (⟨code, memory⟩ : LedgerRow) ∈ selectPairings candidates :=
      mem_selectPairings.mpr hlook
    simpa using ⟨⟨code, memory⟩, hrow, rfl⟩
  obtain ⟨⟨memory', code'⟩, hin, rfl⟩ := List.mem_map.mp hkey
  have heq : code' = code := by
    have hlook' := hsound code' hin
    rw [hlook] at hlook'
    exact (Option.some.inj hlook').symm
  exact heq ▸ hin

theorem assignment_chosenOf (candidates : List LedgerRow) :
    Assignment candidates (chosenOf candidates) where
  keys := Keyed.nodup_keys_dict _
  covers := by
    intro memory
    constructor
    · intro hkey
      obtain ⟨⟨memory', code⟩, hin, rfl⟩ := List.mem_map.mp hkey
      exact ⟨⟨code, memory'⟩, mem_of_lookup_ownersOf (mem_chosenOf.mp hin), rfl⟩
    · rintro ⟨row, hrow, rfl⟩
      obtain ⟨code, hlook⟩ := exists_lookup_ownersOf hrow
      exact List.mem_map.mpr ⟨(row.memoryCommit, code), mem_chosenOf.mpr hlook, rfl⟩
  own := fun memory code hin => mem_of_lookup_ownersOf (mem_chosenOf.mp hin)

/-- The code commits an assignment names can be placed all at once. -/
theorem Assignment.matchable {d : List (String × String)} (h : Assignment candidates d) :
    Matching.Matchable (edgesOf candidates) (named d) :=
  ⟨Matching.placeOf d, Matching.placed_held h.keys fun memory code hlook =>
    mem_edgesOf.mpr (h.own memory code (Keyed.mem_of_lookup hlook))⟩

/-- The matching is among the owners. -/
theorem held_matched_subset (candidates : List LedgerRow) :
    Matching.held (matched candidates) ⊆ named (chosenOf candidates) := by
  obtain ⟨codes, -, hlargest⟩ := largest_matched candidates
  intro code hcode
  obtain ⟨memory, hlook⟩ := (Matching.mem_held hlargest.proper.keys).mp hcode
  have hchosen : (memory, code) ∈ chosenOf candidates := by
    rw [mem_chosenOf, lookup_ownersOf, hlook]
    rfl
  exact List.mem_toFinset.mpr (List.mem_map.mpr ⟨_, hchosen, rfl⟩)

/-- Nothing names more than the matching. -/
theorem Assignment.card_named_le {d : List (String × String)} (h : Assignment candidates d) :
    (named d).card ≤ (named (chosenOf candidates)).card := by
  obtain ⟨codes, hcodes, hlargest⟩ := largest_matched candidates
  have hmost : (named d).card ≤ (Matching.held (matched candidates)).card := by
    refine hlargest.most (named d) h.matchable ?_
    intro code hcode
    obtain ⟨⟨memory, code'⟩, hin, rfl⟩ := List.mem_map.mp (List.mem_toFinset.mp hcode)
    exact (hcodes code').mpr ⟨_, h.own memory code' hin, rfl⟩
  exact hmost.trans (Finset.card_le_card (held_matched_subset candidates))

/-! ## What is lost -/

/-- The code commits of the rows that an assignment leaves without a trailer. -/
def unnamed (candidates : List LedgerRow) (d : List (String × String)) : Finset String :=
  (candidates.map LedgerRow.codeCommit).toFinset \ named d

theorem codes_lostClaims (candidates : List LedgerRow) (chosen : List (String × String)) :
    ((lostClaims candidates chosen).map LostClaim.codeCommit).Nodup ∧
      ((lostClaims candidates chosen).map LostClaim.codeCommit).toFinset =
        unnamed candidates chosen := by
  have hmap : (lostClaims candidates chosen).map LostClaim.codeCommit =
      (candidates.map LedgerRow.codeCommit).reverse.dedup.reverse.filter
        fun code => code ∉ named chosen := by
    rw [lostClaims, List.map_map]
    exact List.map_id _
  rw [hmap]
  refine ⟨(List.nodup_reverse.mpr (List.nodup_dedup _)).filter _, ?_⟩
  ext code
  simp [unnamed]

theorem Assignment.named_subset {d : List (String × String)} (h : Assignment candidates d) :
    named d ⊆ (candidates.map LedgerRow.codeCommit).toFinset := by
  intro code hcode
  obtain ⟨⟨memory, code'⟩, hin, rfl⟩ := List.mem_map.mp (List.mem_toFinset.mp hcode)
  exact List.mem_toFinset.mpr (List.mem_map.mpr ⟨_, h.own memory code' hin, rfl⟩)

theorem Assignment.card_unnamed {d : List (String × String)} (h : Assignment candidates d) :
    (unnamed candidates d).card + (named d).card =
      (candidates.map LedgerRow.codeCommit).toFinset.card :=
  Finset.card_sdiff_add_card_eq_card h.named_subset

theorem Assignment.congr {candidates' : List LedgerRow} {d : List (String × String)}
    (h : Assignment candidates d) (hrows : ∀ row, row ∈ candidates' ↔ row ∈ candidates) :
    Assignment candidates' d where
  keys := h.keys
  covers := by simpa only [hrows] using h.covers
  own := by simpa only [hrows] using h.own

/-- How many code commits are named and how many are lost is decided by
which rows there are, not by their order or how often one stands there. -/
theorem card_named_congr {candidates' : List LedgerRow}
    (hrows : ∀ row, row ∈ candidates' ↔ row ∈ candidates) :
    (named (chosenOf candidates')).card = (named (chosenOf candidates)).card :=
  le_antisymm ((assignment_chosenOf _).congr fun row => (hrows row).symm).card_named_le
    ((assignment_chosenOf _).congr hrows).card_named_le

/-- The selection is an assignment, no assignment names more code commits or
loses fewer, and both counts are the same for any other list of these rows. -/
theorem chooseTrailers_largest (reads : Reads) (tip : String) (rows : List LedgerRow) :
    let candidates := candidatesOf reads tip rows
    let selection := chooseTrailers reads tip rows
    Assignment candidates selection.chosen ∧
      (selection.lost.map LostClaim.codeCommit).Nodup ∧
      (selection.lost.map LostClaim.codeCommit).toFinset = unnamed candidates selection.chosen ∧
      (∀ d, Assignment candidates d → (named d).card ≤ (named selection.chosen).card ∧
        selection.lost.length ≤ (unnamed candidates d).card) ∧
      ∀ rows', (∀ row, row ∈ rows' ↔ row ∈ rows) →
        (named (chooseTrailers reads tip rows').chosen).card = (named selection.chosen).card ∧
        (chooseTrailers reads tip rows').lost.length = selection.lost.length := by
  intro candidates selection
  have hlength : ∀ rows', (chooseTrailers reads tip rows').lost.length =
      (unnamed (candidatesOf reads tip rows') (chosenOf (candidatesOf reads tip rows'))).card := by
    intro rows'
    obtain ⟨hnodup, hset⟩ := codes_lostClaims (candidatesOf reads tip rows')
      (chosenOf (candidatesOf reads tip rows'))
    rw [← hset, List.toFinset_card_of_nodup hnodup, List.length_map]
    rfl
  have hlost : selection.lost.length = (unnamed candidates (chosenOf candidates)).card :=
    hlength rows
  have hself := (assignment_chosenOf candidates).card_unnamed
  obtain ⟨hnodup, hset⟩ := codes_lostClaims candidates (chosenOf candidates)
  refine ⟨assignment_chosenOf candidates, hnodup, hset, ?_, ?_⟩
  · intro d hd
    have hle := hd.card_named_le
    have hd' := hd.card_unnamed
    refine ⟨hle, ?_⟩
    omega
  · intro rows' hrows
    have hcand : ∀ row, row ∈ candidatesOf reads tip rows' ↔ row ∈ candidates := fun row => by
      simp [candidates, candidatesOf, hrows]
    have hnamed := card_named_congr hcand
    have hcodes : ((candidatesOf reads tip rows').map LedgerRow.codeCommit).toFinset =
        (candidates.map LedgerRow.codeCommit).toFinset := by
      ext code
      simp [hcand]
    have hother := (assignment_chosenOf (candidatesOf reads tip rows')).card_unnamed
    refine ⟨hnamed, ?_⟩
    rw [hlost, hlength rows']
    rw [hcodes] at hother
    omega

end AgentsRemember.Backfill
