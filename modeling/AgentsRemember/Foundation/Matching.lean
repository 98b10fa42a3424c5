import AgentsRemember.Foundation.Keyed
import Mathlib.Data.Finset.Card

/-!
# Foundation — Matching

A largest set of pairs that share no endpoint, by augmenting paths: every
claim is offered in turn, and a claim whose places are taken re-places their
holders. `held_maximumMatching` says that no set of claims that can be placed
at once is larger than the set the search places, whatever the order of the
offers.

A search that fails has visited a set of places that is closed: all of them
are held, and their holders have no place outside it. A search that succeeds
moves holders among places it had not visited, and holds one claim more.
-/

namespace Matching

variable {κ μ : Type} [DecidableEq κ] [DecidableEq μ]

/-- Who holds each place, and the places one search has visited. -/
structure Search (κ μ : Type) where
  owner : List (μ × κ)
  visited : List μ

namespace Search

/-- The place has been met. -/
def visit (s : Search κ μ) (m : μ) : Search κ μ := { s with visited := m :: s.visited }

/-- The place has a holder. -/
def assign (s : Search κ μ) (m : μ) (c : κ) : Search κ μ :=
  { s with owner := Keyed.set s.owner m c }

/-- How many held places the search has not visited. -/
def pending (s : Search κ μ) : Nat := (s.owner.filter fun e => e.1 ∉ s.visited).length

end Search

/-- The loop over the places of a claim: the first one not yet visited that
is free, or whose holder finds another, goes to the claim. -/
def tryEach (again : κ → Search κ μ → Bool × Search κ μ) (c : κ) :
    List μ → Search κ μ → Bool × Search κ μ
  | [], s => (false, s)
  | m :: ms, s =>
    if m ∈ s.visited then tryEach again c ms s
    else
      match (s.visit m).owner.lookup m with
      | none => (true, (s.visit m).assign m c)
      | some holder =>
        match again holder (s.visit m) with
        | (true, s') => (true, s'.assign m c)
        | (false, s') => tryEach again c ms s'

variable (edges : κ → List μ)

/-- Place one claim. A holder is re-placed only from a place just visited, so
the held places are fuel enough (`augment_spec`). -/
def augment : Nat → κ → Search κ μ → Bool × Search κ μ
  | 0, _, s => (false, s)
  | fuel + 1, c, s => tryEach (augment fuel) c (edges c) s

/-- One claim more, where it can be placed. -/
def offer (owner : List (μ × κ)) (c : κ) : List (μ × κ) :=
  (augment edges (owner.length + 1) c ⟨owner, []⟩).2.owner

/-- All claims, offered in order. -/
def maximumMatching (claims : List κ) : List (μ × κ) := claims.foldl (offer edges) []

variable {edges}

/-! ## What is held -/

/-- The claims that hold a place. -/
def held (owner : List (μ × κ)) : Finset κ := (owner.map Prod.snd).toFinset

/-- The place of a claim. -/
def placeOf (owner : List (μ × κ)) (c : κ) : Option μ :=
  (owner.find? fun e => e.2 = c).map Prod.fst

/-- Pairs that share no endpoint, each of them on offer. -/
structure Proper (edges : κ → List μ) (owner : List (μ × κ)) : Prop where
  keys : (owner.map Prod.fst).Nodup
  offered : ∀ m c, owner.lookup m = some c → m ∈ edges c
  single : ∀ m m' c, owner.lookup m = some c → owner.lookup m' = some c → m = m'

theorem mem_held {owner : List (μ × κ)} (hkeys : (owner.map Prod.fst).Nodup) {c : κ} :
    c ∈ held owner ↔ ∃ m, owner.lookup m = some c := by
  simp only [held, List.mem_toFinset, List.mem_map]
  constructor
  · rintro ⟨⟨m, c'⟩, hmem, rfl⟩
    exact ⟨m, Keyed.lookup_of_mem hkeys hmem⟩
  · rintro ⟨m, hm⟩
    exact ⟨(m, c), Keyed.mem_of_lookup hm, rfl⟩

theorem lookup_of_placeOf {owner : List (μ × κ)} (hkeys : (owner.map Prod.fst).Nodup) {c : κ}
    {m : μ} (hplace : placeOf owner c = some m) : owner.lookup m = some c := by
  obtain ⟨⟨m', c'⟩, hfind, rfl⟩ := Option.map_eq_some_iff.mp hplace
  have hc : c' = c := of_decide_eq_true (List.find?_some hfind :)
  subst hc
  exact Keyed.lookup_of_mem hkeys (List.mem_of_find?_eq_some hfind)

omit [DecidableEq μ] in
theorem exists_placeOf {owner : List (μ × κ)} {c : κ} (hc : c ∈ held owner) :
    ∃ m, placeOf owner c = some m := by
  obtain ⟨e, he, rfl⟩ := List.mem_map.mp (List.mem_toFinset.mp hc)
  have hsome : (owner.find? fun e' => e'.2 = e.2).isSome := by
    rw [List.find?_isSome]
    exact ⟨e, he, by simp⟩
  obtain ⟨e', hfind⟩ := Option.isSome_iff_exists.mp hsome
  exact ⟨e'.1, by simp [placeOf, hfind]⟩

theorem Proper.placeOf_eq_some {owner : List (μ × κ)} (h : Proper edges owner) {c : κ} {m : μ} :
    placeOf owner c = some m ↔ owner.lookup m = some c := by
  refine ⟨lookup_of_placeOf h.keys, fun hlook => ?_⟩
  obtain ⟨m', hplace⟩ := exists_placeOf ((mem_held h.keys).mpr ⟨m, hlook⟩)
  rw [hplace, h.single m' m c (lookup_of_placeOf h.keys hplace) hlook]

/-- Every claim of `S` is placed on an offer of its own, no two on one. -/
def Placed (edges : κ → List μ) (place : κ → Option μ) (S : Finset κ) : Prop :=
  (∀ c ∈ S, ∃ m ∈ edges c, place c = some m) ∧ ∀ c ∈ S, ∀ c' ∈ S, place c = place c' → c = c'

/-- Claims that can all be placed at once. -/
def Matchable (edges : κ → List μ) (S : Finset κ) : Prop := ∃ place, Placed edges place S

omit [DecidableEq κ] [DecidableEq μ] in
theorem Matchable.mono {S T : Finset κ} (h : Matchable edges T) (hST : S ⊆ T) :
    Matchable edges S := by
  obtain ⟨place, hon, hinj⟩ := h
  exact ⟨place, fun c hc => hon c (hST hc), fun c hc c' hc' => hinj c (hST hc) c' (hST hc')⟩

/-- What is held is placed, also where a claim holds several places. -/
theorem placed_held {owner : List (μ × κ)} (hkeys : (owner.map Prod.fst).Nodup)
    (hoffered : ∀ m c, owner.lookup m = some c → m ∈ edges c) :
    Placed edges (placeOf owner) (held owner) := by
  constructor
  · intro c hc
    obtain ⟨m, hplace⟩ := exists_placeOf hc
    exact ⟨m, hoffered m c (lookup_of_placeOf hkeys hplace), hplace⟩
  · intro c hc c' hc' heq
    obtain ⟨m, hplace⟩ := exists_placeOf hc
    have hlook := lookup_of_placeOf hkeys hplace
    have hlook' := lookup_of_placeOf hkeys (heq ▸ hplace)
    rw [hlook] at hlook'
    exact Option.some.inj hlook'

/-! ## A closed set of places -/

/-- Places that are all held, by claims that have no place outside. -/
def Closed (edges : κ → List μ) (owner : List (μ × κ)) (V : List μ) : Prop :=
  ∀ m ∈ V, ∃ h, owner.lookup m = some h ∧ edges h ⊆ V

/-- The claims whose place is among those of `V`. -/
def within (V : List μ) (place : κ → Option μ) (S : Finset κ) : Finset κ :=
  S.filter fun c => ∃ m ∈ V, place c = some m

section exchange
variable {owner : List (μ × κ)} {V : List μ} (hproper : Proper edges owner)
include hproper

theorem mem_within_held {h : κ} :
    h ∈ within V (placeOf owner) (held owner) ↔ ∃ m ∈ V, owner.lookup m = some h := by
  simp only [within, Finset.mem_filter, mem_held hproper.keys, hproper.placeOf_eq_some]
  exact ⟨And.right, fun hm => ⟨⟨hm.choose, hm.choose_spec.2⟩, hm⟩⟩

variable (hclosed : Closed edges owner V)
include hclosed

theorem edges_subset_of_mem_within {h : κ} (hh : h ∈ within V (placeOf owner) (held owner)) :
    edges h ⊆ V := by
  obtain ⟨m, hm, hlook⟩ := (mem_within_held hproper).mp hh
  obtain ⟨h', hlook', hsub⟩ := hclosed m hm
  rw [hlook, Option.some.injEq] at hlook'
  exact hlook' ▸ hsub

/-- No more claims can be placed in a closed set than hold its places: each
is counted by the holder of its place. -/
theorem card_within_le {place : κ → Option μ} {S : Finset κ}
    (hinj : ∀ c ∈ S, ∀ c' ∈ S, place c = place c' → c = c') :
    (within V place S).card ≤ (within V (placeOf owner) (held owner)).card := by
  let holder : κ → κ := fun c => ((place c).bind fun m => owner.lookup m).getD c
  have hholder : ∀ c ∈ within V place S, ∃ m ∈ V, place c = some m ∧
      owner.lookup m = some (holder c) := by
    intro c hc
    obtain ⟨m, hm, hplace⟩ := (Finset.mem_filter.mp hc).2
    obtain ⟨h, hlook, -⟩ := hclosed m hm
    have hval : holder c = h := by simp [holder, hplace, hlook]
    exact ⟨m, hm, hplace, hval ▸ hlook⟩
  refine Finset.card_le_card_of_injOn holder ?_ ?_
  · intro c hc
    obtain ⟨m, hm, -, hlook⟩ := hholder c hc
    exact (mem_within_held hproper).mpr ⟨m, hm, hlook⟩
  · intro c hc c' hc' heq
    obtain ⟨m, -, hplace, hlook⟩ := hholder c hc
    obtain ⟨m', -, hplace', hlook'⟩ := hholder c' hc'
    have hm : m = m' := hproper.single m m' _ (heq ▸ hlook) hlook'
    exact hinj c (Finset.mem_filter.mp hc).1 c' (Finset.mem_filter.mp hc').1
      (by rw [hplace, hplace', hm])

/-- The exchange: claims placed in a closed set give way to its holders, and
no claim that has all its places there is among what is left. -/
theorem Matchable.exchange {S : Finset κ} (hS : Matchable edges S) :
    ∃ T : Finset κ, Matchable edges T ∧ S.card ≤ T.card ∧
      ∀ c ∈ T, c ∈ held owner ∨ c ∈ S ∧ ¬ edges c ⊆ V := by
  obtain ⟨place, hon, hinj⟩ := hS
  obtain ⟨hon', hinj'⟩ := placed_held hproper.keys hproper.offered
  let holders := within V (placeOf owner) (held owner)
  let stay := S \ within V place S
  have hstay : ∀ c ∈ stay, c ∈ S ∧ ∀ m ∈ V, place c ≠ some m := by
    intro c hc
    obtain ⟨hcS, hnot⟩ := Finset.mem_sdiff.mp hc
    exact ⟨hcS, fun m hm hplace => hnot (Finset.mem_filter.mpr ⟨hcS, m, hm, hplace⟩)⟩
  have houtside : ∀ c ∈ stay, ¬ edges c ⊆ V := by
    intro c hc hsub
    obtain ⟨hcS, hnot⟩ := hstay c hc
    obtain ⟨m, hm, hplace⟩ := hon c hcS
    exact hnot m (hsub hm) hplace
  have hdisj : Disjoint holders stay := by
    rw [Finset.disjoint_left]
    exact fun c hh hs => houtside c hs (edges_subset_of_mem_within hproper hclosed hh)
  let place' : κ → Option μ := fun c => if c ∈ holders then placeOf owner c else place c
  have hholders : ∀ c ∈ holders, c ∈ held owner ∧ ∃ m ∈ V, place' c = placeOf owner c ∧
      placeOf owner c = some m := by
    intro c hc
    obtain ⟨hheld, m, hm, hplace⟩ := Finset.mem_filter.mp hc
    exact ⟨hheld, m, hm, if_pos hc, hplace⟩
  have hstays : ∀ c ∈ stay, place' c = place c := fun c hc =>
    if_neg (Finset.disjoint_right.mp hdisj hc)
  refine ⟨holders ∪ stay, ⟨place', ?_, ?_⟩, ?_, ?_⟩
  · intro c hc
    rcases Finset.mem_union.mp hc with hc | hc
    · obtain ⟨hheld, m, -, heq, -⟩ := hholders c hc
      rw [heq]
      exact hon' c hheld
    · rw [hstays c hc]
      exact hon c (hstay c hc).1
  · intro c hc c' hc' heq
    rcases Finset.mem_union.mp hc with hc | hc <;> rcases Finset.mem_union.mp hc' with hc' | hc'
    · rw [(hholders c hc).2.choose_spec.2.1, (hholders c' hc').2.choose_spec.2.1] at heq
      exact hinj' c (hholders c hc).1 c' (hholders c' hc').1 heq
    · obtain ⟨-, m, hm, hval, hplace⟩ := hholders c hc
      rw [hval, hstays c' hc', hplace] at heq
      exact absurd heq.symm ((hstay c' hc').2 m hm)
    · obtain ⟨-, m, hm, hval, hplace⟩ := hholders c' hc'
      rw [hval, hstays c hc, hplace] at heq
      exact absurd heq ((hstay c hc).2 m hm)
    · rw [hstays c hc, hstays c' hc'] at heq
      exact hinj c (hstay c hc).1 c' (hstay c' hc').1 heq
  · have hle : (within V place S).card ≤ holders.card := card_within_le hproper hclosed hinj
    have hsub : within V place S ⊆ S := Finset.filter_subset _ _
    have hcard : stay.card + (within V place S).card = S.card :=
      Finset.card_sdiff_add_card_eq_card hsub
    rw [Finset.card_union_of_disjoint hdisj]
    omega
  · intro c hc
    rcases Finset.mem_union.mp hc with hc | hc
    · exact .inl (hholders c hc).1
    · exact .inr ⟨(hstay c hc).1, houtside c hc⟩

end exchange

/-! ## A search that fails -/

namespace Search
variable {s s' : Search κ μ} {m : μ}

omit [DecidableEq κ] in
theorem pending_le (howner : s'.owner = s.owner) (hmono : s.visited ⊆ s'.visited) :
    s'.pending ≤ s.pending := by
  unfold pending
  rw [howner]
  refine (List.monotone_filter_right _ ?_).length_le
  intro e he
  simp only [decide_eq_true_eq] at he ⊢
  exact fun h => he (hmono h)

omit [DecidableEq κ] in
/-- A held place that is visited is one less to visit. -/
theorem pending_visit_lt {c : κ} (hm : m ∉ s.visited) (hlook : s.owner.lookup m = some c) :
    (s.visit m).pending < s.pending := by
  have hsub : ((s.owner.filter fun e => e.1 ∉ (s.visit m).visited)).Sublist
      (s.owner.filter fun e => e.1 ∉ s.visited) := by
    refine List.monotone_filter_right _ ?_
    intro e he
    simp only [visit, List.mem_cons, not_or, decide_eq_true_eq] at he ⊢
    exact he.2
  refine lt_of_le_of_ne hsub.length_le ?_
  intro hlen
  have heq := hsub.eq_of_length hlen
  have hin : (m, c) ∈ s.owner.filter fun e => e.1 ∉ s.visited :=
    List.mem_filter.mpr ⟨Keyed.mem_of_lookup hlook, by simpa using hm⟩
  rw [← heq] at hin
  simpa [visit] using (List.mem_filter.mp hin).2

end Search

/-- What a search over the places `ms` has done when it fails. -/
structure Failed (edges : κ → List μ) (ms : List μ) (s s' : Search κ μ) : Prop where
  owner : s'.owner = s.owner
  mono : s.visited ⊆ s'.visited
  tried : ms ⊆ s'.visited
  closed : ∀ m ∈ s'.visited, m ∈ s.visited ∨
    ∃ h, s.owner.lookup m = some h ∧ edges h ⊆ s'.visited

omit [DecidableEq κ] in
theorem Failed.trans {ms ms' : List μ} {s s' s'' : Search κ μ} (h : Failed edges ms s s')
    (h' : Failed edges ms' s' s'') : Failed edges (ms ++ ms') s s'' where
  owner := h'.owner.trans h.owner
  mono := List.Subset.trans h.mono h'.mono
  tried := List.append_subset.mpr ⟨List.Subset.trans h.tried h'.mono, h'.tried⟩
  closed := by
    intro m hm
    rcases h'.closed m hm with hm' | ⟨holder, hlook, hsub⟩
    · exact (h.closed m hm').imp id fun ⟨holder, hlook, hsub⟩ =>
        ⟨holder, hlook, List.Subset.trans hsub h'.mono⟩
    · exact .inr ⟨holder, h.owner ▸ hlook, hsub⟩

omit [DecidableEq κ] in
/-- A place whose holder found no other. -/
theorem Failed.visit {s s' : Search κ μ} {m : μ} {holder : κ}
    (hlook : s.owner.lookup m = some holder) (h : Failed edges (edges holder) (s.visit m) s') :
    Failed edges [m] s s' where
  owner := h.owner
  mono := fun x hx => h.mono (List.mem_cons_of_mem _ hx)
  tried := by
    intro x hx
    rw [List.mem_singleton.mp hx]
    exact h.mono List.mem_cons_self
  closed := by
    intro x hx
    rcases h.closed x hx with hx' | hx'
    · rcases List.mem_cons.mp hx' with rfl | hx'
      · exact .inr ⟨holder, hlook, h.tried⟩
      · exact .inl hx'
    · exact .inr hx'

/-! ## A search that succeeds -/

/-- What a search for `c` has done to the places when it succeeds: what it
had visited before stays, `c` holds one place more, everyone else as many as
before. -/
structure Shifted (edges : κ → List μ) (c : κ) (V : List μ) (o o' : List (μ × κ)) : Prop where
  keys : (o'.map Prod.fst).Nodup
  offered : ∀ m y, o'.lookup m = some y → m ∈ edges y
  frame : ∀ m ∈ V, o'.lookup m = o.lookup m
  place : ∃ m ∉ V, o'.lookup m = some c ∧
    ∀ m', o'.lookup m' = some c → m' = m ∨ o.lookup m' = some c
  single : ∀ y ≠ c, ∀ m m', o'.lookup m = some y → o'.lookup m' = some y → m = m'
  holders : ∀ y, (∃ m, o'.lookup m = some y) ↔ y = c ∨ ∃ m, o.lookup m = some y

namespace Shifted
variable {c x : κ} {m : μ} {V V' : List μ} {o o' : List (μ × κ)}

omit [DecidableEq κ] in
theorem of_subset (h : Shifted edges c V' o o') (hsub : V ⊆ V') : Shifted edges c V o o' :=
  { h with
    frame := fun m hm => h.frame m (hsub hm)
    place := by
      obtain ⟨m, hm, hrest⟩ := h.place
      exact ⟨m, fun hmV => hm (hsub hmV), hrest⟩ }

omit [DecidableEq κ] in
/-- A free place is taken. -/
theorem set_of_free (hproper : Proper edges o) (hm : m ∉ V) (hedge : m ∈ edges c)
    (hfree : o.lookup m = none) : Shifted edges c V o (Keyed.set o m c) where
  keys := Keyed.nodup_keys_set hproper.keys m c
  offered := by
    intro m' y hlook
    rw [Keyed.lookup_set] at hlook
    split at hlook
    · rename_i heq
      rw [← heq, ← Option.some.inj hlook]
      exact hedge
    · exact hproper.offered m' y hlook
  frame := by
    intro m' hm'
    rw [Keyed.lookup_set, if_neg]
    rintro rfl
    exact hm hm'
  place := by
    refine ⟨m, hm, by simp [Keyed.lookup_set], ?_⟩
    intro m' hlook
    by_cases heq : m = m'
    · exact .inl heq.symm
    · rw [Keyed.lookup_set, if_neg heq] at hlook
      exact .inr hlook
  single := by
    intro y hy m₁ m₂ h₁ h₂
    have hne : ∀ m', (Keyed.set o m c).lookup m' = some y → o.lookup m' = some y := by
      intro m' hlook
      rw [Keyed.lookup_set] at hlook
      split at hlook
      · exact absurd (Option.some.inj hlook).symm hy
      · exact hlook
    exact hproper.single m₁ m₂ y (hne m₁ h₁) (hne m₂ h₂)
  holders := by
    intro y
    constructor
    · rintro ⟨m', hlook⟩
      rw [Keyed.lookup_set] at hlook
      split at hlook
      · exact .inl (Option.some.inj hlook).symm
      · exact .inr ⟨m', hlook⟩
    · rintro (rfl | ⟨m', hlook⟩)
      · exact ⟨m, by simp [Keyed.lookup_set]⟩
      · refine ⟨m', ?_⟩
        rw [Keyed.lookup_set, if_neg]
        · exact hlook
        · rintro rfl
          rw [hfree] at hlook
          cases hlook

omit [DecidableEq κ] in
/-- A held place is taken, its holder having moved to another. -/
theorem set_of_held (hproper : Proper edges o) (hm : m ∉ V) (hedge : m ∈ edges c)
    (hheld : o.lookup m = some x) (hseen : ∀ m', o.lookup m' = some c → m' ∈ V)
    (h : Shifted edges x (m :: V) o o') : Shifted edges c V o (Keyed.set o' m c) := by
  have hcx : c ≠ x := by
    rintro rfl
    exact hm (hseen m hheld)
  -- `c` has not been moved, so whatever it holds it has held before.
  have hstill : ∀ m', o'.lookup m' = some c → o.lookup m' = some c := by
    intro m' hlook
    obtain ⟨m₀, h₀⟩ := ((h.holders c).mp ⟨m', hlook⟩).resolve_left hcx
    have h₀' : o'.lookup m₀ = some c := by
      rw [h.frame m₀ (List.mem_cons_of_mem _ (hseen m₀ h₀))]
      exact h₀
    rw [h.single c hcx m' m₀ hlook h₀']
    exact h₀
  have hset : ∀ m' y, (Keyed.set o' m c).lookup m' = some y →
      m' = m ∧ y = c ∨ m' ≠ m ∧ o'.lookup m' = some y := by
    intro m' y hlook
    by_cases heq : m = m'
    · rw [Keyed.lookup_set, if_pos heq] at hlook
      exact .inl ⟨heq.symm, (Option.some.inj hlook).symm⟩
    · rw [Keyed.lookup_set, if_neg heq] at hlook
      exact .inr ⟨Ne.symm heq, hlook⟩
  have hother : ∀ m', m' ≠ m → (Keyed.set o' m c).lookup m' = o'.lookup m' := fun m' hne => by
    rw [Keyed.lookup_set, if_neg (Ne.symm hne)]
  obtain ⟨mx, hmx, hlookx, honly⟩ := h.place
  have hmxm : mx ≠ m := fun heq => hmx (heq ▸ List.mem_cons_self)
  refine ⟨Keyed.nodup_keys_set h.keys m c, ?_, ?_, ⟨m, hm, by simp [Keyed.lookup_set], ?_⟩, ?_, ?_⟩
  · intro m' y hlook
    rcases hset m' y hlook with ⟨rfl, rfl⟩ | ⟨-, hlook'⟩
    · exact hedge
    · exact h.offered m' y hlook'
  · intro m' hm'
    rw [hother m' (fun heq => hm (heq ▸ hm'))]
    exact h.frame m' (List.mem_cons_of_mem _ hm')
  · intro m' hlook
    rcases hset m' c hlook with ⟨heq, -⟩ | ⟨-, hlook'⟩
    · exact .inl heq
    · exact .inr (hstill m' hlook')
  · intro y hy m₁ m₂ h₁ h₂
    obtain ⟨hne₁, h₁'⟩ := (hset m₁ y h₁).resolve_left fun h => hy h.2
    obtain ⟨hne₂, h₂'⟩ := (hset m₂ y h₂).resolve_left fun h => hy h.2
    by_cases hyx : y = x
    · subst hyx
      have hat : ∀ m', m' ≠ m → o'.lookup m' = some y → m' = mx := fun m' hne hlook =>
        (honly m' hlook).resolve_right fun hold => hne (hproper.single m' m y hold hheld)
      rw [hat m₁ hne₁ h₁', hat m₂ hne₂ h₂']
    · exact h.single y hyx m₁ m₂ h₁' h₂'
  · intro y
    constructor
    · rintro ⟨m', hlook⟩
      rcases hset m' y hlook with ⟨-, hy⟩ | ⟨-, hlook'⟩
      · exact .inl hy
      · rcases (h.holders y).mp ⟨m', hlook'⟩ with rfl | hold
        · exact .inr ⟨m, hheld⟩
        · exact .inr hold
    · rintro (rfl | hold)
      · exact ⟨m, by simp [Keyed.lookup_set]⟩
      · obtain ⟨m', hlook⟩ := (h.holders y).mpr (.inr hold)
        by_cases heq : m' = m
        · have hyx : y = x := by
            rw [heq, h.frame m List.mem_cons_self, hheld] at hlook
            exact (Option.some.inj hlook).symm
          exact ⟨mx, by rw [hother mx hmxm, hyx]; exact hlookx⟩
        · exact ⟨m', by rw [hother m' heq]; exact hlook⟩

end Shifted

/-! ## Every search -/

/-- What a search for `c` over the places `ms` may answer. -/
def Outcome (edges : κ → List μ) (c : κ) (ms : List μ) (s : Search κ μ) :
    Bool × Search κ μ → Prop
  | (true, s') => Shifted edges c s.visited s.owner s'.owner
  | (false, s') => Failed edges ms s s'

omit [DecidableEq κ] in
theorem tryEach_outcome {again : κ → Search κ μ → Bool × Search κ μ} {c : κ} {ms : List μ}
    {s : Search κ μ} (hms : ms ⊆ edges c) (hproper : Proper edges s.owner)
    (hseen : ∀ m, s.owner.lookup m = some c → m ∈ s.visited)
    (hagain : ∀ holder t, t.owner = s.owner → t.pending < s.pending →
      (∀ m, t.owner.lookup m = some holder → m ∈ t.visited) →
      Outcome edges holder (edges holder) t (again holder t)) :
    Outcome edges c ms s (tryEach again c ms s) := by
  induction ms generalizing s with
  | nil => exact ⟨rfl, List.Subset.refl _, List.nil_subset _, fun m hm => .inl hm⟩
  | cons m ms ih =>
    obtain ⟨hedge, hrest⟩ := List.cons_subset.mp hms
    -- The loop goes on from a failure with the same owners and no more pending.
    have hgoes : ∀ s', Failed edges [m] s s' →
        Outcome edges c (m :: ms) s (tryEach again c ms s') := by
      intro s' hfail
      have hout := ih (s := s') hrest (hfail.owner ▸ hproper)
        (fun m' hlook => hfail.mono (hseen m' (hfail.owner ▸ hlook)))
        (fun holder t howner hlt => hagain holder t (howner.trans hfail.owner)
          (lt_of_lt_of_le hlt (Search.pending_le hfail.owner hfail.mono)))
      rcases htry : tryEach again c ms s' with ⟨_ | _, s''⟩
      · rw [htry] at hout
        exact hfail.trans hout
      · rw [htry] at hout
        have hshift : Shifted edges c s'.visited s'.owner s''.owner := hout
        rw [hfail.owner] at hshift
        exact hshift.of_subset hfail.mono
    unfold tryEach
    by_cases hm : m ∈ s.visited
    · rw [if_pos hm]
      exact hgoes s ⟨rfl, List.Subset.refl _, by simpa using hm, fun m hm => .inl hm⟩
    · rw [if_neg hm]
      cases hlook : (s.visit m).owner.lookup m with
      | none => exact Shifted.set_of_free hproper hm hedge hlook
      | some holder =>
        have hheld : ∀ m', (s.visit m).owner.lookup m' = some holder →
            m' ∈ (s.visit m).visited := by
          intro m' hlook'
          rw [hproper.single m' m holder hlook' hlook]
          exact List.mem_cons_self
        have hout := hagain holder (s.visit m) rfl (Search.pending_visit_lt hm hlook) hheld
        rcases hag : again holder (s.visit m) with ⟨_ | _, s'⟩
        · rw [hag] at hout
          simp only [hag]
          exact hgoes s' (Failed.visit hlook hout)
        · rw [hag] at hout
          simp only [hag]
          exact Shifted.set_of_held hproper hm hedge hlook hseen hout

omit [DecidableEq κ] in
/-- No search is cut short: its fuel exceeds the held places it may visit. -/
theorem augment_outcome {fuel : Nat} {c : κ} {s : Search κ μ} (hfuel : s.pending < fuel)
    (hproper : Proper edges s.owner)
    (hseen : ∀ m, s.owner.lookup m = some c → m ∈ s.visited) :
    Outcome edges c (edges c) s (augment edges fuel c s) := by
  induction fuel generalizing c s with
  | zero => omega
  | succ fuel ih =>
    refine tryEach_outcome (List.Subset.refl _) hproper hseen ?_
    intro holder t howner hlt hseen'
    exact ih (by omega) (howner ▸ hproper) hseen'

/-! ## Offering every claim -/

/-- What is reached when the claims `offered` have been offered: no set of
them that can be placed is larger than what is held. -/
structure Largest (edges : κ → List μ) (offered : List κ) (owner : List (μ × κ)) : Prop where
  proper : Proper edges owner
  among : ∀ c ∈ held owner, c ∈ offered
  most : ∀ S : Finset κ, Matchable edges S → (∀ c ∈ S, c ∈ offered) → S.card ≤ (held owner).card

theorem Largest.nil : Largest edges [] [] where
  proper := ⟨.nil, fun _ _ h => (by cases h), fun _ _ _ h => (by cases h)⟩
  among := fun c hc => by simp [held] at hc
  most := by
    intro S _ hS
    have hempty : S = ∅ := Finset.eq_empty_of_forall_notMem fun c hc => by simpa using hS c hc
    simp [hempty]

/-- An offer leaves everyone where they were, as all places of the claim lie in a
closed set; or it places the claim beside all who have a place. -/
theorem offer_cases {owner : List (μ × κ)} {c : κ} (hproper : Proper edges owner)
    (hnew : c ∉ held owner) :
    (offer edges owner c = owner ∧ ∃ V, Closed edges owner V ∧ edges c ⊆ V) ∨
      Proper edges (offer edges owner c) ∧ held (offer edges owner c) = insert c (held owner) := by
  have hfree : ∀ m, owner.lookup m ≠ some c := fun m hlook =>
    hnew ((mem_held hproper.keys).mpr ⟨m, hlook⟩)
  have hfuel : (Search.pending ⟨owner, ([] : List μ)⟩) < owner.length + 1 :=
    Nat.lt_succ_of_le (List.length_filter_le _ _)
  have hout := augment_outcome (c := c) hfuel hproper fun m hlook => absurd hlook (hfree m)
  unfold Matching.offer
  rcases haug : augment edges (owner.length + 1) c ⟨owner, []⟩ with ⟨_ | _, s'⟩
  · rw [haug] at hout
    have hfail : Failed edges (edges c) ⟨owner, []⟩ s' := hout
    exact .inl ⟨hfail.owner, s'.visited,
      fun m hm => (hfail.closed m hm).resolve_left (by simp), hfail.tried⟩
  · rw [haug] at hout
    have hshift : Shifted edges c [] owner s'.owner := hout
    have hproper' : Proper edges s'.owner := by
      refine ⟨hshift.keys, hshift.offered, ?_⟩
      intro m m' y hlook hlook'
      by_cases hy : y = c
      · subst hy
        obtain ⟨m₀, -, -, honly⟩ := hshift.place
        rw [(honly m hlook).resolve_right (hfree m), (honly m' hlook').resolve_right (hfree m')]
      · exact hshift.single y hy m m' hlook hlook'
    refine .inr ⟨hproper', ?_⟩
    ext y
    rw [mem_held hproper'.keys, hshift.holders y, Finset.mem_insert, mem_held hproper.keys]

theorem Largest.offer {offered : List κ} {owner : List (μ × κ)} {c : κ}
    (h : Largest edges offered owner) (hc : c ∉ offered) :
    Largest edges (offered ++ [c]) (offer edges owner c) := by
  have hnew : c ∉ held owner := fun hin => hc (h.among c hin)
  obtain ⟨hsame, V, hclosed, htried⟩ | ⟨hproper, hheld⟩ := offer_cases h.proper hnew
  · -- The places visited are closed, so the claim is in no largest set.
    rw [hsame]
    refine ⟨h.proper, fun c' hc' => List.mem_append_left _ (h.among c' hc'), ?_⟩
    intro S hS hSin
    obtain ⟨T, hT, hcard, hTin⟩ := hS.exchange h.proper hclosed
    refine hcard.trans (h.most T hT ?_)
    intro c' hc'
    rcases hTin c' hc' with hheld | ⟨hmem, hout'⟩
    · exact h.among c' hheld
    · rcases List.mem_append.mp (hSin c' hmem) with hoff | hlast
      · exact hoff
      · rw [List.mem_singleton.mp hlast] at hout'
        exact absurd htried hout'
  · refine ⟨hproper, ?_, ?_⟩
    · intro y hy
      rw [hheld, Finset.mem_insert] at hy
      rcases hy with rfl | hy
      · simp
      · exact List.mem_append_left _ (h.among y hy)
    · intro S hS hSin
      have hrest := h.most (S.erase c) (hS.mono (Finset.erase_subset c S)) ?_
      · rw [hheld, Finset.card_insert_of_notMem hnew]
        have hpred : S.card - 1 ≤ (S.erase c).card := Finset.pred_card_le_card_erase
        omega
      · intro y hy
        obtain ⟨hyc, hyS⟩ := Finset.mem_erase.mp hy
        exact (List.mem_append.mp (hSin y hyS)).resolve_right fun hlast =>
          hyc (List.mem_singleton.mp hlast)

theorem largest_maximumMatching {claims : List κ} (hclaims : claims.Nodup) :
    Largest edges claims (maximumMatching edges claims) := by
  induction claims using List.reverseRecOn with
  | nil => exact Largest.nil
  | append_singleton claims c ih =>
    rw [List.nodup_append] at hclaims
    rw [maximumMatching, List.foldl_append]
    exact (ih hclaims.1).offer fun hin => hclaims.2.2 c hin c (by simp) rfl

/-! ## What the order of the offers decides -/

omit [DecidableEq κ] in
/-- A claim takes its first place where it is free. -/
theorem offer_takes {owner : List (μ × κ)} {c : κ} {m : μ} {ms : List μ} (hedges : edges c = m :: ms)
    (hfree : owner.lookup m = none) : (offer edges owner c).lookup m = some c := by
  have haugment : augment edges (owner.length + 1) c ⟨owner, []⟩ =
      (true, (Search.visit ⟨owner, []⟩ m).assign m c) := by
    rw [augment, hedges, tryEach, if_neg (by simp)]
    simp [Search.visit, hfree]
  rw [offer, haugment]
  simp [Search.assign, Search.visit, Keyed.lookup_set]

/-- Who holds a place goes on holding one, and only the claim offered may be new. -/
theorem Largest.held_offer {offered : List κ} {owner : List (μ × κ)} {c : κ}
    (h : Largest edges offered owner) (hc : c ∉ offered) :
    held owner ⊆ held (Matching.offer edges owner c) ∧
      held (Matching.offer edges owner c) ⊆ insert c (held owner) := by
  have hnew : c ∉ held owner := fun hin => hc (h.among c hin)
  obtain ⟨hsame, -⟩ | ⟨-, hheld⟩ := offer_cases h.proper hnew
  · rw [hsame]
    exact ⟨subset_rfl, Finset.subset_insert c _⟩
  · rw [hheld]
    exact ⟨Finset.subset_insert c _, subset_rfl⟩

/-- A claim with one place only is never moved from it. -/
theorem Largest.keeps_only {offered : List κ} {owner : List (μ × κ)} {c x : κ} {m : μ}
    (h : Largest edges offered owner) (hc : c ∉ offered) (hedges : edges x = [m])
    (hlook : owner.lookup m = some x) : (Matching.offer edges owner c).lookup m = some x := by
  have hproper := (h.offer hc).proper
  have hheld : x ∈ held (Matching.offer edges owner c) :=
    (h.held_offer hc).1 ((mem_held h.proper.keys).mpr ⟨m, hlook⟩)
  obtain ⟨m', hlook'⟩ := (mem_held hproper.keys).mp hheld
  have hm : m' = m := by
    have hin := hproper.offered m' x hlook'
    rwa [hedges, List.mem_singleton] at hin
  exact hm ▸ hlook'

/-- Of the claims that have one place only, the first one offered gets it. -/
theorem lookup_maximumMatching_only {front back : List κ} {c : κ} {m : μ}
    (hclaims : (front ++ c :: back).Nodup) (hedges : edges c = [m])
    (hfront : ∀ x ∈ front, m ∉ edges x) :
    (maximumMatching edges (front ++ c :: back)).lookup m = some c := by
  induction back using List.reverseRecOn with
  | nil =>
    have hfrontNodup : front.Nodup := (List.nodup_append.mp hclaims).1
    have hlargest : Largest edges front (maximumMatching edges front) :=
      largest_maximumMatching hfrontNodup
    rw [maximumMatching, List.foldl_append]
    refine offer_takes hedges ?_
    -- Who holds the place was offered before, and has it among its own.
    cases hlook : (maximumMatching edges front).lookup m with
    | none => exact hlook
    | some x =>
      have hx := hlargest.among x ((mem_held hlargest.proper.keys).mpr ⟨m, hlook⟩)
      exact absurd (hlargest.proper.offered m x hlook) (hfront x hx)
  | append_singleton back x ih =>
    have hsplit : front ++ c :: (back ++ [x]) = (front ++ c :: back) ++ [x] := by simp
    rw [hsplit] at hclaims ⊢
    obtain ⟨hnodup, -, hlast⟩ := List.nodup_append.mp hclaims
    rw [maximumMatching, List.foldl_append]
    exact (largest_maximumMatching hnodup).keeps_only
      (fun hin => hlast x hin x (by simp) rfl) hedges (ih hnodup)

/-- Whoever could take a place that is left free holds another. -/
theorem Largest.held_of_free {offered : List κ} {owner : List (μ × κ)} {c : κ} {m : μ}
    (h : Largest edges offered owner) (hc : c ∈ offered) (hm : m ∈ edges c)
    (hfree : owner.lookup m = none) : c ∈ held owner := by
  by_contra hnot
  obtain ⟨hon, hinj⟩ := placed_held h.proper.keys h.proper.offered
  let place : κ → Option μ := fun x => if x = c then some m else placeOf owner x
  have hplace : ∀ x ∈ held owner, place x = placeOf owner x := by
    intro x hx
    refine if_neg fun heq => hnot ?_
    rwa [← heq]
  have hother : ∀ x ∈ held owner, place x ≠ some m := by
    intro x hx heq
    rw [hplace x hx, h.proper.placeOf_eq_some, hfree] at heq
    cases heq
  have hself : place c = some m := if_pos rfl
  have hmatchable : Matchable edges (insert c (held owner)) := by
    refine ⟨place, ?_, ?_⟩
    · intro x hx
      obtain rfl | hx := Finset.mem_insert.mp hx
      · exact ⟨m, hm, hself⟩
      · rw [hplace x hx]
        exact hon x hx
    · intro x hx x' hx' heq
      obtain hxc | hxin := Finset.mem_insert.mp hx <;> obtain hxc' | hxin' := Finset.mem_insert.mp hx'
      · rw [hxc, hxc']
      · exact absurd (heq.symm.trans (hxc ▸ hself)) (hother x' hxin')
      · exact absurd (heq.trans (hxc' ▸ hself)) (hother x hxin)
      · rw [hplace x hxin, hplace x' hxin'] at heq
        exact hinj x hxin x' hxin' heq
  have hcard := h.most _ hmatchable fun x hx => by
    obtain rfl | hx := Finset.mem_insert.mp hx
    · exact hc
    · exact h.among x hx
  rw [Finset.card_insert_of_notMem hnot] at hcard
  omega

/-- Of the claims offered up to one of them, those that hold a place in the end are those that
held one then. -/
theorem held_maximumMatching_append {front back : List κ} (hclaims : (front ++ back).Nodup) :
    held (maximumMatching edges front) ⊆ held (maximumMatching edges (front ++ back)) ∧
      ∀ x ∈ held (maximumMatching edges (front ++ back)),
        x ∈ held (maximumMatching edges front) ∨ x ∈ back := by
  induction back using List.reverseRecOn with
  | nil => simp
  | append_singleton back c ih =>
    rw [← List.append_assoc] at hclaims ⊢
    obtain ⟨hnodup, -, hlast⟩ := List.nodup_append.mp hclaims
    obtain ⟨hkept, hfrom⟩ := ih hnodup
    have hlargest : Largest edges (front ++ back) (maximumMatching edges (front ++ back)) :=
      largest_maximumMatching hnodup
    have hstep := hlargest.held_offer (c := c) fun hin => hlast c hin c (by simp) rfl
    have hoffer : maximumMatching edges (front ++ back ++ [c]) =
        offer edges (maximumMatching edges (front ++ back)) c := by
      simp [maximumMatching, List.foldl_append]
    rw [hoffer]
    refine ⟨hkept.trans hstep.1, fun x hx => ?_⟩
    obtain rfl | hx := Finset.mem_insert.mp (hstep.2 hx)
    · exact .inr (by simp)
    · exact (hfrom x hx).imp_right (List.mem_append_left _)

/-- A claim that ends without a place cannot be placed beside those that were offered before it
and have one. -/
theorem not_matchable_of_unheld {front back : List κ} {c : κ}
    (hclaims : (front ++ c :: back).Nodup)
    (hc : c ∉ held (maximumMatching edges (front ++ c :: back))) :
    ¬Matchable edges (insert c (held (maximumMatching edges front))) := by
  intro hplaced
  have hsplit : front ++ c :: back = (front ++ [c]) ++ back := by simp
  rw [hsplit] at hclaims hc
  obtain ⟨hnodup, -, -⟩ := List.nodup_append.mp hclaims
  have hlargest : Largest edges (front ++ [c]) (maximumMatching edges (front ++ [c])) :=
    largest_maximumMatching hnodup
  have hfront : Largest edges front (maximumMatching edges front) :=
    largest_maximumMatching (List.nodup_append.mp hnodup).1
  have hnot : c ∉ held (maximumMatching edges (front ++ [c])) := fun hin =>
    hc ((held_maximumMatching_append hclaims).1 hin)
  -- Nobody new has a place once it was offered, so it would be one too many.
  have hsame : held (maximumMatching edges (front ++ [c])) ⊆ held (maximumMatching edges front) := by
    intro x hx
    refine ((held_maximumMatching_append hnodup).2 x hx).resolve_right fun hlast => ?_
    exact hnot (List.mem_singleton.mp hlast ▸ hx)
  have hcard := hlargest.most _ hplaced fun x hx => by
    obtain rfl | hx := Finset.mem_insert.mp hx
    · simp
    · exact List.mem_append_left _ (hfront.among x hx)
  rw [Finset.card_insert_of_notMem fun hin => hnot ((held_maximumMatching_append hnodup).1 hin)]
    at hcard
  have := Finset.card_le_card hsame
  omega

end Matching
