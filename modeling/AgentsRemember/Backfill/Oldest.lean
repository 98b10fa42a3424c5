import AgentsRemember.Backfill.Largest

/-!
# Backfill — Oldest

How far the oldest row of a memory commit wins. The order in which the code
commits are offered settles every contest among claims that have nowhere else
to go; a claim with an alternative may still be moved, and the census names
whoever was left with nothing.
-/

namespace AgentsRemember.Backfill

variable {candidates : List LedgerRow}

/-! ## Vocabulary -/

/-- The bottom row of each memory commit. -/
def oldestRows (candidates : List LedgerRow) : List (String × String) :=
  Keyed.dict (candidates.map fun row => (row.memoryCommit, row.codeCommit))

/-- No assignment names more code commits. -/
def NamesMost (candidates : List LedgerRow) (d : List (String × String)) : Prop :=
  ∀ d', Assignment candidates d' → (named d').card ≤ (named d).card

/-- A claim with nowhere else to go: all rows of the code commit name one
memory commit. -/
def OnlyClaim (candidates : List LedgerRow) (code memory : String) : Prop :=
  ⟨code, memory⟩ ∈ candidates ∧ ∀ row ∈ candidates, row.codeCommit = code → row.memoryCommit = memory

/-- The memory commits that the rows of a code commit name. -/
def alternatives (candidates : List LedgerRow) (code : String) : Finset String :=
  ((candidates.filter fun row => row.codeCommit = code).map LedgerRow.memoryCommit).toFinset

/-- One code commit goes before another: it has fewer alternatives, or as many and
its bottom row is below all the other's. -/
def GoesBefore (candidates : List LedgerRow) (first second : String) : Prop :=
  (alternatives candidates first).card < (alternatives candidates second).card ∨
    (alternatives candidates first).card = (alternatives candidates second).card ∧
      ∃ front row back, candidates = front ++ row :: back ∧ row.codeCommit = first ∧
        ∀ other ∈ back, other.codeCommit ≠ second

/-- Code commits that can each be given a memory commit of its own rows, no two
the same. -/
def Together (candidates : List LedgerRow) (codes : Finset String) : Prop :=
  ∃ place : String → String, (∀ code ∈ codes, ⟨code, place code⟩ ∈ candidates) ∧
    ∀ code ∈ codes, ∀ other ∈ codes, place code = place other → code = other

/-- The lost claims are the code commits without a trailer, each of them once,
against a memory commit of its own and what that one carries. -/
structure LostExactly (candidates : List LedgerRow) (selection : Selection) : Prop where
  once : (selection.lost.map LostClaim.codeCommit).Nodup
  codes : (selection.lost.map LostClaim.codeCommit).toFinset = unnamed candidates selection.chosen
  contested : ∀ claim ∈ selection.lost, ⟨claim.codeCommit, claim.memoryCommit⟩ ∈ candidates ∧
    selection.chosen.lookup claim.memoryCommit = some claim.winner

/-- The bottom row of a contested memory commit is the one that is carried. -/
structure OldestRowWins (candidates : List LedgerRow) (selection : Selection) : Prop where
  leftover : ∀ memory, (matched candidates).lookup memory = none →
    selection.chosen.lookup memory = (oldestRows candidates).lookup memory
  preferred : NamesMost candidates (oldestRows candidates) →
    ∀ memory, selection.chosen.lookup memory = (oldestRows candidates).lookup memory
  lost : LostExactly candidates selection

/-- What the order of the offers does settle. -/
structure OldestClaimWins (candidates : List LedgerRow) (selection : Selection) : Prop where
  /-- Of the claims with nowhere else to go, the bottom one is carried. -/
  only : ∀ front back code memory, candidates = front ++ ⟨code, memory⟩ :: back →
    OnlyClaim candidates code memory →
    (∀ row ∈ back, row.memoryCommit = memory → ¬OnlyClaim candidates row.codeCommit memory) →
    selection.chosen.lookup memory = some code
  /-- A memory commit that is left over carries one of its own rows, and the
  matching names the code commits of all of them. -/
  leftover : ∀ row ∈ candidates, (matched candidates).lookup row.memoryCommit = none →
    row.codeCommit ∈ Matching.held (matched candidates) ∧
      ∃ code, selection.chosen.lookup row.memoryCommit = some code ∧
        ⟨code, row.memoryCommit⟩ ∈ candidates
  /-- Nothing names more, so where the bottom rows name the most, as many are
  named. -/
  most : Assignment candidates selection.chosen ∧ NamesMost candidates selection.chosen
  /-- A code commit is lost to claims that go before it: whatever it could be
  placed together with leaves one of them out. -/
  outranked : ∀ code ∈ unnamed candidates selection.chosen, ∀ codes,
    Together candidates (insert code codes) →
      ∃ other ∈ named selection.chosen, GoesBefore candidates other code ∧ other ∉ codes
  lost : LostExactly candidates selection

/-! ## The order of the offers -/

/-- How deep the oldest row of a code commit sits. -/
def rankOf (candidates : List LedgerRow) (code : String) : Nat :=
  ((oldestRowRank candidates).lookup code).getD 0

theorem foldl_rank (rows : List LedgerRow) {ranks : List (String × Nat)}
    (hzero : ∀ code, (ranks.lookup code).getD 0 = 0) (code : String) :
    let rank := ((rows.zipIdx.foldl (fun ranks e =>
      Keyed.set ranks e.1.codeCommit (max ((ranks.lookup e.1.codeCommit).getD 0) e.2))
        ranks).lookup code).getD 0
    (∀ i row, rows[i]? = some row → row.codeCommit = code → i ≤ rank) ∧
      (0 < rank → ∃ row, rows[rank]? = some row ∧ row.codeCommit = code) := by
  induction rows using List.reverseRecOn with
  | nil => simp [hzero code]
  | append_singleton rows last ih =>
    rw [List.zipIdx_append, List.foldl_append]
    simp only [List.zipIdx_singleton, List.foldl_cons, List.foldl_nil, Keyed.lookup_set,
      Nat.zero_add]
    obtain ⟨hdeep, hat⟩ := ih
    by_cases hlast : last.codeCommit = code
    · rw [if_pos hlast, hlast, Option.getD_some]
      constructor
      · intro i row hrow hcode
        obtain hlt | hge := Nat.lt_or_ge i rows.length
        · rw [List.getElem?_append_left hlt] at hrow
          exact le_trans (hdeep i row hrow hcode) (le_max_left _ _)
        · have hi : i < rows.length + 1 := by
            have hbound := (List.getElem?_eq_some_iff.mp hrow).1
            simpa using hbound
          omega
      · intro _
        -- No row so far is as deep as the last one.
        refine ⟨last, ?_, hlast⟩
        rw [max_eq_right]
        · simp
        · by_contra hnot
          obtain ⟨row, hrow, -⟩ := hat (by omega)
          have hbound := (List.getElem?_eq_some_iff.mp hrow).1
          omega
    · rw [if_neg hlast]
      constructor
      · intro i row hrow hcode
        obtain hlt | hge := Nat.lt_or_ge i rows.length
        · rw [List.getElem?_append_left hlt] at hrow
          exact hdeep i row hrow hcode
        · rw [List.getElem?_append_right hge] at hrow
          have hmem : row = last := by
            have hin := List.mem_of_getElem? hrow
            simpa using hin
          exact absurd (hmem ▸ hcode) hlast
      · intro hpos
        obtain ⟨row, hrow, hcode⟩ := hat hpos
        have hbound := (List.getElem?_eq_some_iff.mp hrow).1
        exact ⟨row, by rw [List.getElem?_append_left hbound, hrow], hcode⟩

/-- The rank of a code commit is where its bottom row stands. -/
theorem rankOf_spec {code : String} (h : ∃ row ∈ candidates, row.codeCommit = code) :
    (∃ row, candidates[rankOf candidates code]? = some row ∧ row.codeCommit = code) ∧
      ∀ i row, candidates[i]? = some row → row.codeCommit = code → i ≤ rankOf candidates code := by
  have hzero : ∀ code, ((Keyed.dict (candidates.map fun row => (row.codeCommit, 0))).lookup
      code).getD 0 = 0 := by
    intro code
    cases hlook : (Keyed.dict (candidates.map fun row => (row.codeCommit, 0))).lookup code with
    | none => rfl
    | some rank =>
      obtain ⟨row, -, heq⟩ := List.mem_map.mp (Keyed.mem_of_mem_dict (Keyed.mem_of_lookup hlook))
      rw [Prod.mk.injEq] at heq
      exact heq.2.symm
  obtain ⟨hdeep, hat⟩ := foldl_rank candidates hzero code
  refine ⟨?_, hdeep⟩
  obtain ⟨row, hrow, hcode⟩ := h
  obtain ⟨i, hi⟩ := List.mem_iff_getElem?.mp hrow
  by_cases hpos : 0 < rankOf candidates code
  · exact hat hpos
  · have hle : i ≤ rankOf candidates code := hdeep i row hi hcode
    obtain rfl : i = rankOf candidates code := by omega
    exact ⟨row, hi, hcode⟩

/-- Each memory commit is offered once. -/
theorem nodup_edgesOf (candidates : List LedgerRow) (code : String) :
    (edgesOf candidates code).Nodup := by
  have hfold : ∀ rows : List LedgerRow, (((rows.foldl enroll []).lookup code).getD []).Nodup := by
    intro rows
    induction rows using List.reverseRecOn with
    | nil => exact .nil
    | append_singleton rows row ih =>
      rw [List.foldl_append]
      simp only [List.foldl_cons, List.foldl_nil, enroll, Keyed.getD_setDefault_nil]
      split
      · rw [Keyed.getD_setDefault_nil]
        exact ih
      next hnew =>
        rw [Keyed.lookup_attach, Keyed.getD_setDefault_nil]
        split
        next hcode =>
          rw [hcode] at hnew
          exact List.nodup_append.mpr ⟨ih, List.nodup_singleton _, by
            intro memory hmemory memory' hmemory' heq
            rw [List.mem_singleton] at hmemory'
            exact hnew (hmemory' ▸ heq ▸ hmemory)⟩
        · rw [List.append_nil]
          exact ih
  have hrows := hfold candidates.reverse
  rw [edgesOf, byCode, Keyed.lookup_map]
  cases hlook : (candidates.reverse.foldl enroll []).lookup code with
  | none => exact .nil
  | some memories =>
    rw [hlook] at hrows
    exact List.nodup_reverse.mpr hrows

/-- A claim has nowhere else to go where it is offered one place only. -/
theorem edgesOf_eq_singleton {code memory : String} :
    edgesOf candidates code = [memory] ↔ OnlyClaim candidates code memory := by
  constructor
  · intro h
    have hmem : memory ∈ edgesOf candidates code := by simp [h]
    refine ⟨mem_edgesOf.mp hmem, fun row hrow hcode => ?_⟩
    have hin : row.memoryCommit ∈ edgesOf candidates code := mem_edgesOf.mpr (hcode ▸ hrow)
    rwa [h, List.mem_singleton] at hin
  · intro ⟨hmem, honly⟩
    have hall : ∀ other ∈ edgesOf candidates code, other = memory := fun other hother =>
      honly _ (mem_edgesOf.mp hother) rfl
    have hin := mem_edgesOf.mpr hmem
    have hnodup := nodup_edgesOf candidates code
    cases hedges : edgesOf candidates code with
    | nil => rw [hedges] at hin; cases hin
    | cons first rest =>
      rw [hedges] at hall hnodup
      have hfirst := hall first (by simp)
      cases rest with
      | nil => rw [hfirst]
      | cons second rest =>
        have hsecond := hall second (by simp)
        simp [hfirst, hsecond] at hnodup

/-- Most constrained first, and of equally constrained claims the oldest. -/
theorem offered_before {a b : String}
    (h : offerKey (byCode candidates) (oldestRowRank candidates) a ≤
      offerKey (byCode candidates) (oldestRowRank candidates) b) :
    (edgesOf candidates a).length < (edgesOf candidates b).length ∨
      (edgesOf candidates a).length = (edgesOf candidates b).length ∧
        rankOf candidates b ≤ rankOf candidates a := by
  rw [offerKey, offerKey, Prod.Lex.toLex_le_toLex] at h
  obtain hlt | ⟨heq, hrank⟩ := h
  · exact .inl hlt
  · refine .inr ⟨heq, ?_⟩
    rw [Prod.Lex.toLex_le_toLex] at hrank
    unfold rankOf
    omega

/-- Whoever is offered before another goes before it. -/
theorem goesBefore_of_offered {a b : String} (ha : ∃ row ∈ candidates, row.codeCommit = a)
    (hb : ∃ row ∈ candidates, row.codeCommit = b) (hne : a ≠ b)
    (h : offerKey (byCode candidates) (oldestRowRank candidates) a ≤
      offerKey (byCode candidates) (oldestRowRank candidates) b) : GoesBefore candidates a b := by
  have hcard : ∀ code, (alternatives candidates code).card = (edgesOf candidates code).length := by
    intro code
    rw [← List.toFinset_card_of_nodup (nodup_edgesOf candidates code)]
    congr 1
    ext memory
    simp only [alternatives, List.mem_toFinset, List.mem_map, List.mem_filter, mem_edgesOf]
    constructor
    · rintro ⟨row, ⟨hrow, hcode⟩, rfl⟩
      rw [decide_eq_true_eq] at hcode
      exact hcode ▸ hrow
    · exact fun hrow => ⟨_, ⟨hrow, by simp⟩, rfl⟩
  unfold GoesBefore
  rw [hcard, hcard]
  refine (offered_before h).imp_right fun ⟨heq, hrank⟩ => ⟨heq, ?_⟩
  obtain ⟨⟨row, hrow, hcode⟩, -⟩ := rankOf_spec ha
  obtain ⟨⟨other, hother, hotherCode⟩, hdeepest⟩ := rankOf_spec hb
  obtain ⟨hlt, hget⟩ := List.getElem?_eq_some_iff.mp hrow
  -- The ranks are of rows of different code commits.
  have hbelow : rankOf candidates b < rankOf candidates a := by
    refine lt_of_le_of_ne hrank fun hsame => hne ?_
    rw [hsame, hrow] at hother
    rw [← hcode, ← hotherCode, Option.some.inj hother]
  refine ⟨candidates.take (rankOf candidates a), row, candidates.drop (rankOf candidates a + 1),
    ?_, hcode, fun last hlast hlastCode => ?_⟩
  · rw [← hget, ← List.drop_eq_getElem_cons hlt, List.take_append_drop]
  · obtain ⟨i, hi⟩ := List.mem_iff_getElem?.mp hlast
    rw [List.getElem?_drop] at hi
    have := hdeepest _ last hi hlastCode
    omega

/-- A code commit that the matching leaves out cannot be placed beside those it keeps that go
before it. -/
theorem outranked_matched {code : String} (hrow : ∃ row ∈ candidates, row.codeCommit = code)
    (hout : code ∉ Matching.held (matched candidates)) {codes : Finset String}
    (htogether : Together candidates (insert code codes)) :
    ∃ other ∈ Matching.held (matched candidates), GoesBefore candidates other code ∧
      other ∉ codes := by
  obtain ⟨hnodup, hkeys⟩ := keys_byCode candidates
  have hperm : (Ranked.sortBy (offerKey (byCode candidates) (oldestRowRank candidates))
      ((byCode candidates).map Prod.fst)).Perm ((byCode candidates).map Prod.fst) :=
    List.mergeSort_perm _ _
  have hsorted : (Ranked.sortBy (offerKey (byCode candidates) (oldestRowRank candidates))
      ((byCode candidates).map Prod.fst)).Pairwise fun a b =>
        offerKey (byCode candidates) (oldestRowRank candidates) a ≤
          offerKey (byCode candidates) (oldestRowRank candidates) b := Ranked.sortBy_pairwise
  have hin := hperm.mem_iff.mpr ((hkeys code).mpr hrow)
  rw [matched, maximumMatching] at hout ⊢
  obtain ⟨front, back, hsplit⟩ := List.append_of_mem hin
  rw [hsplit] at hsorted hperm hout ⊢
  have hclaims := hperm.nodup_iff.mpr hnodup
  have hfront : front.Nodup := (List.nodup_append.mp hclaims).1
  have hunplaced := Matching.not_matchable_of_unheld hclaims hout
  have hkept := (@Matching.held_maximumMatching_append _ _ _ _
    (fun code => ((byCode candidates).lookup code).getD []) front (code :: back) hclaims).1
  -- If all of them were among `codes`, they would be placed together with the code commit.
  by_contra hnone
  push Not at hnone
  refine hunplaced (Matching.Matchable.mono (T := insert code codes) ?_ ?_)
  · obtain ⟨place, hown, hinj⟩ := htogether
    refine ⟨fun code => some (place code), fun c hc => ⟨place c, ?_, rfl⟩, fun c hc c' hc' heq => ?_⟩
    · exact mem_edgesOf.mpr (hown c hc)
    · exact hinj c hc c' hc' (Option.some.inj heq)
  · refine Finset.insert_subset_insert code fun other hother => hnone other (hkept hother) ?_
    have hoffered : other ∈ front := (Matching.largest_maximumMatching hfront).among other hother
    have hne : other ≠ code := fun heq =>
      (List.nodup_append.mp hclaims).2.2 other hoffered code (by simp) heq
    have hrow' := (hkeys other).mp (hperm.mem_iff.mp (by simp [hoffered]))
    exact goesBefore_of_offered hrow' hrow hne
      ((List.pairwise_append.mp hsorted).2.2 other hoffered code (by simp))

/-- Of the claims with nowhere else to go, the matching keeps the bottom one. -/
theorem lookup_matched_only {front back : List LedgerRow} {code memory : String}
    (hrows : candidates = front ++ ⟨code, memory⟩ :: back)
    (honly : OnlyClaim candidates code memory)
    (hback : ∀ row ∈ back, row.memoryCommit = memory → ¬OnlyClaim candidates row.codeCommit memory) :
    (matched candidates).lookup memory = some code := by
  obtain ⟨hnodup, hkeys⟩ := keys_byCode candidates
  have hperm : (Ranked.sortBy (offerKey (byCode candidates) (oldestRowRank candidates))
      ((byCode candidates).map Prod.fst)).Perm ((byCode candidates).map Prod.fst) :=
    List.mergeSort_perm _ _
  have hsorted : (Ranked.sortBy (offerKey (byCode candidates) (oldestRowRank candidates))
      ((byCode candidates).map Prod.fst)).Pairwise fun a b =>
        offerKey (byCode candidates) (oldestRowRank candidates) a ≤
          offerKey (byCode candidates) (oldestRowRank candidates) b := Ranked.sortBy_pairwise
  have hin := hperm.mem_iff.mpr ((hkeys code).mpr ⟨_, honly.1, rfl⟩)
  rw [matched, maximumMatching]
  obtain ⟨before, after, hsplit⟩ := List.append_of_mem hin
  rw [hsplit] at hsorted hperm ⊢
  refine Matching.lookup_maximumMatching_only (hperm.nodup_iff.mpr hnodup)
    (edgesOf_eq_singleton.mpr honly) fun other hother hoffered => ?_
  -- A claim offered before has no more places, and its oldest row is no higher.
  have hkey := (List.pairwise_append.mp hsorted).2.2 other hother code (by simp)
  have hplace : memory ∈ edgesOf candidates other := hoffered
  have hcode : (edgesOf candidates code).length = 1 := by
    rw [edgesOf_eq_singleton.mpr honly, List.length_singleton]
  have hpos : 0 < (edgesOf candidates other).length := List.length_pos_of_mem hplace
  obtain hlt | ⟨hlength, hrank⟩ := offered_before hkey
  · omega
  have hotherOnly : OnlyClaim candidates other memory := by
    obtain ⟨place, heq⟩ := List.length_eq_one_iff.mp (hlength.trans hcode)
    rw [heq, List.mem_singleton] at hplace
    exact edgesOf_eq_singleton.mp (hplace ▸ heq)
  have hne : other ≠ code := by
    rintro rfl
    exact (List.nodup_append.mp (hperm.nodup_iff.mpr hnodup)).2.2 other hother other (by simp) rfl
  obtain ⟨⟨row, hrow, hrowCode⟩, -⟩ := rankOf_spec ⟨_, hotherOnly.1, rfl⟩
  have hdepth : front.length ≤ rankOf candidates code :=
    (rankOf_spec ⟨_, honly.1, rfl⟩).2 front.length _ (by rw [hrows]; simp) rfl
  have hmem : row ∈ candidates := List.mem_of_getElem? hrow
  have hmemory : row.memoryCommit = memory := hotherOnly.2 row hmem hrowCode
  refine hback row ?_ hmemory (hrowCode ▸ hotherOnly)
  rw [hrows, List.getElem?_append_right (hrows ▸ hdepth.trans hrank)] at hrow
  obtain heq | hin := List.mem_cons.mp (List.mem_of_getElem? hrow)
  · exact absurd (hrowCode.symm.trans (congrArg LedgerRow.codeCommit heq)) hne
  · exact hin

/-! ## What is chosen -/

theorem namesMost_chosenOf (candidates : List LedgerRow) :
    NamesMost candidates (chosenOf candidates) := fun _ hd => hd.card_named_le

theorem lookup_chosenOf (memory : String) :
    (chosenOf candidates).lookup memory = (ownersOf candidates).lookup memory := by
  ext code
  rw [← mem_chosenOf]
  exact ⟨Keyed.mem_of_lookup, Keyed.lookup_of_mem (Keyed.nodup_keys_dict _)⟩

/-! ## The census -/

/-- Every memory commit of a row is chosen, so each lost claim has a winner. -/
theorem contested_lostClaims {chosen : List (String × String)} (h : Assignment candidates chosen)
    {claim : LostClaim} (hclaim : claim ∈ lostClaims candidates chosen) :
    ⟨claim.codeCommit, claim.memoryCommit⟩ ∈ candidates ∧
      chosen.lookup claim.memoryCommit = some claim.winner := by
  obtain ⟨code, hcode, rfl⟩ := List.mem_map.mp hclaim
  obtain ⟨row, hrow, rfl⟩ : ∃ row ∈ candidates, row.codeCommit = code := by
    have hin := (List.mem_filter.mp hcode).1
    simpa using hin
  have hchosen : row.memoryCommit ∈ chosen.map Prod.fst := (h.covers _).mpr ⟨row, hrow, rfl⟩
  have hfound : (candidates.find? fun other => decide (other.codeCommit = row.codeCommit) &&
      decide (other.memoryCommit ∈ chosen.map Prod.fst)).isSome := by
    rw [List.find?_isSome]
    exact ⟨row, hrow, by simpa using hchosen⟩
  obtain ⟨found, hfind⟩ := Option.isSome_iff_exists.mp hfound
  have hfits := List.find?_some hfind
  rw [Bool.and_eq_true, decide_eq_true_eq, decide_eq_true_eq] at hfits
  obtain ⟨winner, hwinner⟩ := Option.isSome_iff_exists.mp (Keyed.lookup_isSome_iff.mpr hfits.2)
  have hcontested : ((candidates.find? fun other => decide (other.codeCommit = row.codeCommit) &&
      decide (other.memoryCommit ∈ chosen.map Prod.fst)).map LedgerRow.memoryCommit).getD "" =
        found.memoryCommit := by
    rw [hfind, Option.map_some, Option.getD_some]
  dsimp only
  rw [hcontested, hwinner, Option.getD_some, ← hfits.1]
  exact ⟨List.mem_of_find?_eq_some hfind, rfl⟩

theorem lostExactly_chooseTrailers (reads : Reads) (tip : String) (rows : List LedgerRow) :
    LostExactly (candidatesOf reads tip rows) (chooseTrailers reads tip rows) where
  once := (codes_lostClaims _ _).1
  codes := (codes_lostClaims _ _).2
  contested := fun _ hclaim => contested_lostClaims (assignment_chosenOf _) hclaim

/-! ## The selection -/

/-- The oldest row wins among the claims with nowhere else to go; what is left
over carries one of its own rows; the most are named; a code commit is lost only
to claims that go before it, and none is lost unsaid. -/
theorem chooseTrailers_oldest (reads : Reads) (tip : String) (rows : List LedgerRow) :
    OldestClaimWins (candidatesOf reads tip rows) (chooseTrailers reads tip rows) where
  only := by
    intro front back code memory hrows honly hback
    have hmatched := lookup_matched_only hrows honly hback
    show (chosenOf _).lookup memory = some code
    rw [lookup_chosenOf, lookup_ownersOf, hmatched]
    rfl
  leftover := by
    intro row hrow hfree
    obtain ⟨codes, hcodes, hlargest⟩ := largest_matched (candidatesOf reads tip rows)
    refine ⟨hlargest.held_of_free ((hcodes _).mpr ⟨row, hrow, rfl⟩) (mem_edgesOf.mpr hrow) hfree, ?_⟩
    obtain ⟨code, hlook⟩ := exists_lookup_ownersOf hrow
    exact ⟨code, (lookup_chosenOf _).trans hlook, mem_of_lookup_ownersOf hlook⟩
  most := ⟨assignment_chosenOf _, namesMost_chosenOf _⟩
  outranked := by
    intro code hcode codes htogether
    obtain ⟨hrow, hunnamed⟩ := Finset.mem_sdiff.mp hcode
    have hkept := held_matched_subset (candidatesOf reads tip rows)
    obtain ⟨other, hother, hbefore, hnot⟩ := outranked_matched (by simpa using hrow)
      (fun hin => hunnamed (hkept hin)) htogether
    exact ⟨other, hkept hother, hbefore, hnot⟩
  lost := lostExactly_chooseTrailers reads tip rows

/-- The bottom rows name both code commits: x and z are b's, y is a's. -/
def displacedRows : List LedgerRow :=
  [⟨"a", "x"⟩, ⟨"a", "y"⟩, ⟨"a", "z"⟩, ⟨"b", "z"⟩, ⟨"b", "x"⟩]

theorem matched_displacedRows : matched displacedRows = [("z", "b"), ("x", "a")] := by
  have hsorted : Ranked.sortBy (offerKey (byCode displacedRows) (oldestRowRank displacedRows))
      ((byCode displacedRows).map Prod.fst) = ["b", "a"] := by
    have hkeys : (byCode displacedRows).map Prod.fst = ["b", "a"] := by decide
    rw [hkeys]
    exact List.mergeSort_of_pairwise (by decide)
  rw [matched, maximumMatching, hsorted]
  decide

/-- The search gives x, whose bottom row is b's, to a. -/
theorem oldest_row_displaced :
    ¬∀ reads tip rows,
      OldestRowWins (candidatesOf reads tip rows) (chooseTrailers reads tip rows) := by
  intro h
  have hwins := h ⟨fun _ => true, fun _ _ => true, fun _ => true⟩ "tip" displacedRows
  have hmost : NamesMost displacedRows (oldestRows displacedRows) := fun d hd =>
    Finset.card_le_card (hd.named_subset.trans (by decide))
  have hpreferred : (chosenOf displacedRows).lookup "x" = (oldestRows displacedRows).lookup "x" :=
    hwins.preferred hmost "x"
  rw [lookup_chosenOf, lookup_ownersOf, matched_displacedRows] at hpreferred
  exact absurd hpreferred (by decide)

end AgentsRemember.Backfill
