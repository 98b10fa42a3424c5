import Mathlib

/-!
# Foundation — Keyed

Insertion-ordered dictionaries as lists of entries, with the update
rule of an ordered dictionary: assigning to a present key keeps its
position, assigning to a new key appends. `foldLast` reads a log of
records into such a dictionary, the last record of each key winning.

Two families of facts: what `List.lookup` answers after each operation, and
how filtering a log by key commutes with folding it.
-/

namespace Keyed

variable {κ ν ρ : Type} [DecidableEq κ]

/-- Assignment: update in place, or append. -/
def set : List (κ × ν) → κ → ν → List (κ × ν)
  | [], k, v => [(k, v)]
  | (k', v') :: d, k, v => if k' = k then (k, v) :: d else (k', v') :: set d k v

/-- Assignment to a key that has no value yet. -/
def setDefault (d : List (κ × ν)) (k : κ) (v : ν) : List (κ × ν) :=
  if k ∈ d.map Prod.fst then d else set d k v

/-- Removal of a key. -/
def erase (d : List (κ × ν)) (k : κ) : List (κ × ν) :=
  d.filter (fun e => e.1 ≠ k)

/-- The dictionary of the last record of each key, in the order in
which the keys first appear. -/
def foldLast (key : ρ → κ) (rs : List ρ) : List (κ × ρ) :=
  rs.foldl (fun d r => set d (key r) r) []

/-- The dictionary a list of assignments leaves. -/
def dict (es : List (κ × ν)) : List (κ × ν) :=
  es.foldl (fun d e => set d e.1 e.2) []

/-- The entries in front of a key, and those behind it. -/
def front (d : List (κ × ν)) (k : κ) : List (κ × ν) := d.takeWhile (fun e => e.1 ≠ k)

/-- The entries behind a key. -/
def behind (d : List (κ × ν)) (k : κ) : List (κ × ν) :=
  (d.dropWhile (fun e => e.1 ≠ k)).tail

/-! ## The keys -/

theorem keys_set (d : List (κ × ν)) (k : κ) (v : ν) :
    (set d k v).map Prod.fst =
      if k ∈ d.map Prod.fst then d.map Prod.fst else d.map Prod.fst ++ [k] := by
  induction d with
  | nil => simp [set]
  | cons e d ih =>
    obtain ⟨k₀, v₀⟩ := e
    by_cases hk : k₀ = k
    · simp [set, hk]
    · by_cases hm : k ∈ d.map Prod.fst
      · simp [set, hk, ih, hm]
      · simp [set, hk, ih, hm, Ne.symm hk]

theorem nodup_keys_set {d : List (κ × ν)} (hd : (d.map Prod.fst).Nodup)
    (k : κ) (v : ν) : ((set d k v).map Prod.fst).Nodup := by
  rw [keys_set]
  split
  · exact hd
  · rename_i h
    exact List.nodup_append.mpr ⟨hd, by simp, by
      intro a ha b hb
      rw [List.mem_singleton] at hb
      subst hb
      exact fun he => h (he ▸ ha)⟩

theorem mem_keys_set (d : List (κ × ν)) (k : κ) (v : ν) (k' : κ) :
    k' ∈ (set d k v).map Prod.fst ↔ k' ∈ d.map Prod.fst ∨ k' = k := by
  rw [keys_set]
  split
  · rename_i hk
    exact ⟨.inl, fun h => h.elim id fun heq => heq ▸ hk⟩
  · simp

theorem mem_keys_setDefault (d : List (κ × ν)) (k : κ) (v : ν) (k' : κ) :
    k' ∈ (setDefault d k v).map Prod.fst ↔ k' ∈ d.map Prod.fst ∨ k' = k := by
  unfold setDefault
  split
  · rename_i hk
    exact ⟨.inl, fun h => h.elim id fun heq => heq ▸ hk⟩
  · exact mem_keys_set d k v k'

theorem nodup_keys_setDefault {d : List (κ × ν)} (hd : (d.map Prod.fst).Nodup)
    (k : κ) (v : ν) : ((setDefault d k v).map Prod.fst).Nodup := by
  unfold setDefault
  split
  · exact hd
  · exact nodup_keys_set hd k v

theorem mem_set {d : List (κ × ν)} {k k' : κ} {v v' : ν}
    (h : (k', v') ∈ set d k v) : (k' = k ∧ v' = v) ∨ (k', v') ∈ d := by
  induction d with
  | nil => simpa [set] using h
  | cons e d ih =>
    obtain ⟨k₀, v₀⟩ := e
    by_cases hk : k₀ = k
    · simp only [set, hk, if_true, List.mem_cons, Prod.mk.injEq] at h
      rcases h with h | h
      · exact .inl h
      · exact .inr (List.mem_cons_of_mem _ h)
    · simp only [set, hk, if_false, List.mem_cons, Prod.mk.injEq] at h
      rcases h with h | h
      · exact .inr (by simp [h])
      · exact (ih h).imp id (List.mem_cons_of_mem _)

theorem set_of_not_mem {d : List (κ × ν)} {k : κ} (h : k ∉ d.map Prod.fst) (v : ν) :
    set d k v = d ++ [(k, v)] := by
  induction d with
  | nil => rfl
  | cons e d ih =>
    obtain ⟨k₀, v₀⟩ := e
    simp only [List.map_cons, List.mem_cons, not_or] at h
    simp [set, Ne.symm h.1, ih h.2]

/-- An assignment puts its entry between what is in front and behind. -/
theorem set_eq (d : List (κ × ν)) (k : κ) (v : ν) :
    set d k v = front d k ++ (k, v) :: behind d k := by
  induction d with
  | nil => rfl
  | cons e d ih =>
    obtain ⟨k₀, v₀⟩ := e
    by_cases hk : k₀ = k
    · simp [set, front, behind, hk]
    · simp only [front, behind] at ih
      simp [set, front, behind, hk, ih]

/-- A removal leaves these two. -/
theorem erase_eq {d : List (κ × ν)} (hd : (d.map Prod.fst).Nodup) (k : κ) :
    erase d k = front d k ++ behind d k := by
  induction d with
  | nil => rfl
  | cons e d ih =>
    obtain ⟨k₀, v₀⟩ := e
    rw [List.map_cons, List.nodup_cons] at hd
    by_cases hk : k₀ = k
    · have hrest : d.filter (fun e => e.1 ≠ k) = d := by
        rw [List.filter_eq_self]
        intro e he
        simp only [ne_eq, decide_eq_true_eq]
        rintro rfl
        exact hd.1 (by rw [hk]; exact List.mem_map.mpr ⟨e, he, rfl⟩)
      simpa [erase, front, behind, hk] using hrest
    · have := ih hd.2
      simp only [erase, front, behind] at this
      simpa [erase, front, behind, hk] using this

theorem length_erase {d : List (κ × ν)} (hd : (d.map Prod.fst).Nodup) {k : κ}
    (hk : k ∈ d.map Prod.fst) : (erase d k).length + 1 = d.length := by
  have hset : (front d k).length + (behind d k).length + 1 = d.length := by
    clear hd
    induction d with
    | nil => cases hk
    | cons e d ih =>
      by_cases he : e.1 = k
      · simp [front, behind, he]
      · have hmem : k ∈ d.map Prod.fst := by
          obtain rfl | hmem := List.mem_cons.mp hk
          · exact absurd rfl he
          · exact hmem
        have hfront : front (e :: d) k = e :: front d k := by simp [front, he]
        have hbehind : behind (e :: d) k = behind d k := by simp [behind, he]
        have hrest := ih hmem
        rw [hfront, hbehind, List.length_cons, List.length_cons]
        omega
  rw [erase_eq hd, List.length_append]
  exact hset

theorem nodup_keys_dict (es : List (κ × ν)) : ((dict es).map Prod.fst).Nodup := by
  induction es using List.reverseRecOn with
  | nil => simp [dict]
  | append_singleton es e ih =>
    rw [dict, List.foldl_append]
    exact nodup_keys_set ih _ _

theorem mem_of_mem_dict {es : List (κ × ν)} {e : κ × ν} (h : e ∈ dict es) : e ∈ es := by
  induction es using List.reverseRecOn with
  | nil => exact h
  | append_singleton es f ih =>
    rw [dict, List.foldl_append] at h
    rcases mem_set h with ⟨hk, hv⟩ | h
    · exact List.mem_append.mpr (.inr (by simp [Prod.ext_iff, hk, hv]))
    · exact List.mem_append.mpr (.inl (ih h))

theorem mem_keys_dict {es : List (κ × ν)} {k : κ} :
    k ∈ (dict es).map Prod.fst ↔ k ∈ es.map Prod.fst := by
  induction es using List.reverseRecOn with
  | nil => rfl
  | append_singleton es e ih =>
    rw [dict, List.foldl_append]
    show k ∈ (set (dict es) e.1 e.2).map Prod.fst ↔ _
    rw [mem_keys_set, ih, List.map_append, List.mem_append]
    simp

theorem set_ne_nil (d : List (κ × ν)) (k : κ) (v : ν) : set d k v ≠ [] := by
  cases d with
  | nil => simp [set]
  | cons e d =>
    rw [set]
    split <;> simp

theorem dict_ne_nil {es : List (κ × ν)} (h : es ≠ []) : dict es ≠ [] := by
  induction es using List.reverseRecOn with
  | nil => exact absurd rfl h
  | append_singleton es e _ =>
    rw [dict, List.foldl_append]
    exact set_ne_nil _ _ _

/-- Assignments to distinct keys are a dictionary already. -/
theorem dict_of_nodup {es : List (κ × ν)} (h : (es.map Prod.fst).Nodup) :
    dict es = es := by
  induction es using List.reverseRecOn with
  | nil => rfl
  | append_singleton es e ih =>
    rw [List.map_append, List.nodup_append] at h
    have hes := ih h.1
    rw [dict] at hes
    rw [dict, List.foldl_append, hes]
    have he : e.1 ∉ es.map Prod.fst := fun hm => h.2.2 _ hm e.1 (by simp) rfl
    exact set_of_not_mem he _

/-! ## Folding a log -/

@[simp] theorem foldLast_nil (key : ρ → κ) : foldLast key [] = [] := rfl

theorem foldLast_snoc (key : ρ → κ) (rs : List ρ) (r : ρ) :
    foldLast key (rs ++ [r]) = set (foldLast key rs) (key r) r := by
  simp [foldLast, List.foldl_append]

theorem nodup_keys_foldLast (key : ρ → κ) (rs : List ρ) :
    ((foldLast key rs).map Prod.fst).Nodup := by
  induction rs using List.reverseRecOn with
  | nil => simp
  | append_singleton rs r ih =>
    rw [foldLast_snoc]
    exact nodup_keys_set ih _ _

theorem foldLast_key (key : ρ → κ) {rs : List ρ} {k : κ} {r : ρ}
    (h : (k, r) ∈ foldLast key rs) : key r = k ∧ r ∈ rs := by
  induction rs using List.reverseRecOn with
  | nil => cases h
  | append_singleton rs r₀ ih =>
    rw [foldLast_snoc] at h
    rcases mem_set h with ⟨rfl, rfl⟩ | h
    · simp
    · exact ⟨(ih h).1, by simp [(ih h).2]⟩

theorem filter_set (p : κ → Bool) (d : List (κ × ν)) (k : κ) (v : ν) :
    (set d k v).filter (fun e => p e.1) =
      if p k then set (d.filter (fun e => p e.1)) k v
      else d.filter (fun e => p e.1) := by
  induction d with
  | nil => by_cases hp : p k <;> simp [set, hp]
  | cons e d ih =>
    obtain ⟨k₀, v₀⟩ := e
    by_cases hk : k₀ = k
    · subst hk
      by_cases hp : p k₀ <;> simp [set, hp]
    · by_cases hp : p k <;> by_cases hp₀ : p k₀ <;>
        simp [set, hk, hp, hp₀, ih]

/-- Dropping every record of some keys before folding drops exactly
those keys from the fold, and moves nothing else. -/
theorem foldLast_filter (key : ρ → κ) (p : κ → Bool) (rs : List ρ) :
    foldLast key (rs.filter (fun r => p (key r))) =
      (foldLast key rs).filter (fun e => p e.1) := by
  induction rs using List.reverseRecOn with
  | nil => rfl
  | append_singleton rs r ih =>
    rw [foldLast_snoc, filter_set, List.filter_append]
    by_cases hp : p (key r)
    · simp [hp, foldLast_snoc, ih]
    · simp [hp, ih]

/-! ## Lookup -/

section lookup
variable [BEq κ] [LawfulBEq κ]

/-- Move a present key to the young end. -/
def moveToEnd (d : List (κ × ν)) (k : κ) : List (κ × ν) :=
  match d.lookup k with
  | none => d
  | some v => erase d k ++ [(k, v)]

/-- Lookup through a cons, as a propositional case split. -/
theorem lookup_cons (k' : κ) (v : ν) (d : List (κ × ν)) (k : κ) :
    ((k', v) :: d).lookup k = if k' = k then some v else d.lookup k := by
  by_cases h : k' = k
  · subst h; simp
  · simp [List.lookup, h, beq_eq_false_iff_ne.mpr (Ne.symm h)]

theorem lookup_append (d e : List (κ × ν)) (k : κ) :
    (d ++ e).lookup k = (d.lookup k).or (e.lookup k) := by
  induction d with
  | nil => simp
  | cons p d ih =>
    obtain ⟨k', v⟩ := p
    by_cases h : k' = k <;> simp [lookup_cons, h, ih]

theorem lookup_map {ν' : Type} (f : ν → ν') (d : List (κ × ν)) (k : κ) :
    (d.map fun e => (e.1, f e.2)).lookup k = (d.lookup k).map f := by
  induction d with
  | nil => rfl
  | cons p d ih =>
    obtain ⟨k', v⟩ := p
    rw [List.map_cons, lookup_cons, lookup_cons, ih]
    split <;> rfl

theorem lookup_set (d : List (κ × ν)) (k : κ) (v : ν) (k' : κ) :
    (set d k v).lookup k' = if k = k' then some v else d.lookup k' := by
  induction d with
  | nil => simp [set, lookup_cons]
  | cons p d ih =>
    obtain ⟨k₀, v₀⟩ := p
    by_cases h : k₀ = k
    · subst h
      by_cases h' : k₀ = k' <;> simp [set, lookup_cons, h']
    · by_cases h' : k₀ = k'
      · subst h'
        simp [set, h, Ne.symm h]
      · simp [set, h, lookup_cons, h', ih]

theorem lookup_filter_key (p : κ → Bool) (d : List (κ × ν)) (k : κ) :
    (d.filter (fun e => p e.1)).lookup k = if p k then d.lookup k else none := by
  induction d with
  | nil => simp
  | cons e d ih =>
    obtain ⟨k₀, v₀⟩ := e
    by_cases hp : p k₀
    · by_cases h : k₀ = k
      · subst h; simp [hp]
      · simp [hp, lookup_cons, h, ih]
    · by_cases h : k₀ = k
      · subst h; simp [hp, ih]
      · simp [hp, lookup_cons, h, ih]

theorem lookup_erase (d : List (κ × ν)) (k k' : κ) :
    (erase d k).lookup k' = if k' = k then none else d.lookup k' := by
  have h := lookup_filter_key (fun x => decide (x ≠ k)) d k'
  rw [show erase d k = d.filter (fun e => decide (e.1 ≠ k)) from rfl, h]
  by_cases hk : k' = k <;> simp [hk]

theorem lookup_foldl_erase (ks : List κ) (d : List (κ × ν)) (k : κ) :
    (ks.foldl erase d).lookup k = if k ∈ ks then none else d.lookup k := by
  induction ks generalizing d with
  | nil => simp
  | cons k₀ ks ih =>
    rw [List.foldl_cons, ih, lookup_erase]
    by_cases hk : k ∈ ks
    · simp [hk]
    · by_cases h : k = k₀ <;> simp [hk, h]

theorem lookup_moveToEnd (d : List (κ × ν)) (k k' : κ) :
    (moveToEnd d k).lookup k' = d.lookup k' := by
  unfold moveToEnd
  cases h : d.lookup k with
  | none => rfl
  | some v =>
    by_cases hk : k' = k
    · subst hk; simp [lookup_append, lookup_erase, h]
    · simp [lookup_append, lookup_erase, lookup_cons, hk, Ne.symm hk]

omit [LawfulBEq κ] in
theorem nodup_keys_moveToEnd {d : List (κ × ν)} (hd : (d.map Prod.fst).Nodup) (k : κ) :
    ((moveToEnd d k).map Prod.fst).Nodup := by
  unfold moveToEnd
  cases d.lookup k with
  | none => exact hd
  | some v =>
    show ((erase d k ++ [(k, v)]).map Prod.fst).Nodup
    rw [List.map_append, List.nodup_append]
    refine ⟨hd.sublist (List.filter_sublist.map _), by simp, ?_⟩
    intro x hx y hy
    obtain ⟨e, he, rfl⟩ := List.mem_map.mp hx
    simp only [List.map_cons, List.map_nil, List.mem_singleton] at hy
    rw [hy]
    simpa using (List.mem_filter.mp he).2

theorem mem_of_lookup {d : List (κ × ν)} {k : κ} {v : ν}
    (h : d.lookup k = some v) : (k, v) ∈ d := by
  induction d with
  | nil => simp at h
  | cons e d ih =>
    obtain ⟨k₀, v₀⟩ := e
    by_cases hk : k₀ = k
    · simp only [lookup_cons, hk, if_true, Option.some.injEq] at h
      simp [hk, h]
    · simp only [lookup_cons, hk, if_false] at h
      exact List.mem_cons_of_mem _ (ih h)

theorem lookup_isSome_iff {d : List (κ × ν)} {k : κ} :
    (d.lookup k).isSome ↔ k ∈ d.map Prod.fst := by
  induction d with
  | nil => simp
  | cons e d ih =>
    obtain ⟨k₀, v₀⟩ := e
    by_cases hk : k₀ = k
    · simp [hk]
    · simp [lookup_cons, hk, ih, Ne.symm hk]

theorem lookup_setDefault (d : List (κ × ν)) (k : κ) (v : ν) (k' : κ) :
    (setDefault d k v).lookup k' = (d.lookup k').or (if k = k' then some v else none) := by
  unfold setDefault
  split
  · rename_i hk
    by_cases hk' : k = k'
    · subst hk'
      obtain ⟨w, hw⟩ := Option.isSome_iff_exists.mp (lookup_isSome_iff.mpr hk)
      simp [hw]
    · simp [hk']
  · rename_i hk
    rw [lookup_set]
    by_cases hk' : k = k'
    · subst hk'
      have hnone : d.lookup k = none := by
        rw [← Option.not_isSome_iff_eq_none, lookup_isSome_iff]
        exact hk
      simp [hnone]
    · simp [hk']

theorem lookup_foldl_setDefault (es d : List (κ × ν)) (k : κ) :
    (es.foldl (fun d e => setDefault d e.1 e.2) d).lookup k = (d.lookup k).or (es.lookup k) := by
  induction es generalizing d with
  | nil => simp
  | cons e es ih =>
    obtain ⟨k₀, v₀⟩ := e
    rw [List.foldl_cons, ih, lookup_setDefault, lookup_cons, Option.or_assoc]
    by_cases hk : k₀ = k <;> simp [hk]

theorem lookup_of_mem {d : List (κ × ν)} (hd : (d.map Prod.fst).Nodup)
    {k : κ} {v : ν} (h : (k, v) ∈ d) : d.lookup k = some v := by
  induction d with
  | nil => cases h
  | cons e d ih =>
    obtain ⟨k₀, v₀⟩ := e
    simp only [List.map_cons, List.nodup_cons] at hd
    rcases List.mem_cons.mp h with h | h
    · cases h; simp
    · have hk : k₀ ≠ k := by
        rintro rfl
        exact hd.1 (List.mem_map.mpr ⟨_, h, rfl⟩)
      simp [lookup_cons, hk, ih hd.2 h]

theorem lookup_foldLast_snoc (key : ρ → κ) (rs : List ρ) (r : ρ) (k : κ) :
    (foldLast key (rs ++ [r])).lookup k =
      if key r = k then some r else (foldLast key rs).lookup k := by
  rw [foldLast_snoc, lookup_set]

/-- Of distinct keys, the order does not matter. -/
theorem lookup_perm {d e : List (κ × ν)} (hd : (d.map Prod.fst).Nodup) (h : d.Perm e)
    (k : κ) : d.lookup k = e.lookup k := by
  have he : (e.map Prod.fst).Nodup := (h.map _).nodup_iff.mp hd
  cases hk : e.lookup k with
  | none =>
    have hnot : k ∉ d.map Prod.fst := by
      rw [(h.map _).mem_iff, ← lookup_isSome_iff, hk]
      simp
    rw [← Option.not_isSome_iff_eq_none, lookup_isSome_iff]
    exact hnot
  | some v => exact lookup_of_mem hd (h.mem_iff.mpr (mem_of_lookup hk))

theorem lookup_dict_map {ν' : Type} (f : ν → ν') (es : List (κ × ν)) (k : κ) :
    (dict (es.map fun e => (e.1, f e.2))).lookup k = ((dict es).lookup k).map f := by
  induction es using List.reverseRecOn with
  | nil => rfl
  | append_singleton es e ih =>
    simp only [dict, List.map_append, List.foldl_append] at ih ⊢
    simp only [List.map_cons, List.map_nil, List.foldl_cons, List.foldl_nil, lookup_set, ih]
    split <;> rfl

/-- Of two lists of assignments, the second decides. -/
theorem lookup_dict_append (es fs : List (κ × ν)) (k : κ) :
    (dict (es ++ fs)).lookup k = ((dict fs).lookup k).or ((dict es).lookup k) := by
  induction fs using List.reverseRecOn with
  | nil => simp [dict]
  | append_singleton fs f ih =>
    have hsnoc : ∀ gs : List (κ × ν), dict (gs ++ [f]) = set (dict gs) f.1 f.2 := fun gs => by
      simp [dict, List.foldl_append]
    rw [← List.append_assoc, hsnoc, hsnoc, lookup_set, lookup_set, ih]
    split <;> rfl

/-- Dictionaries with the same keys in the same order that answer alike are the same. -/
theorem ext_lookup {d e : List (κ × ν)} (hkeys : d.map Prod.fst = e.map Prod.fst)
    (hd : (d.map Prod.fst).Nodup) (h : ∀ k, d.lookup k = e.lookup k) : d = e := by
  induction d generalizing e with
  | nil => cases e with
    | nil => rfl
    | cons => cases hkeys
  | cons p d ih =>
    obtain ⟨k, v⟩ := p
    cases e with
    | nil => cases hkeys
    | cons q e =>
      obtain ⟨k', v'⟩ := q
      rw [List.map_cons, List.map_cons, List.cons.injEq] at hkeys
      obtain ⟨hk, hkeys⟩ := hkeys
      dsimp only at hk
      subst hk
      rw [List.map_cons, List.nodup_cons] at hd
      have hv : v = v' := by simpa using h k
      rw [hv, ih hkeys hd.2]
      intro k'
      by_cases hk' : k = k'
      · subst hk'
        have hnot : d.lookup k = none := by
          rw [← Option.not_isSome_iff_eq_none, lookup_isSome_iff]
          exact hd.1
        have hnot' : e.lookup k = none := by
          rw [← Option.not_isSome_iff_eq_none, lookup_isSome_iff, ← hkeys]
          exact hd.1
        rw [hnot, hnot']
      · simpa [lookup_cons, hk'] using h k'

end lookup

/-- Assignments to keys that are there move nothing. -/
theorem keys_foldl_set {es d : List (κ × ν)} (h : ∀ e ∈ es, e.1 ∈ d.map Prod.fst) :
    (es.foldl (fun d e => set d e.1 e.2) d).map Prod.fst = d.map Prod.fst := by
  induction es generalizing d with
  | nil => rfl
  | cons e es ih =>
    have hkeys : (set d e.1 e.2).map Prod.fst = d.map Prod.fst := by
      rw [keys_set, if_pos (h e (List.mem_cons_self ..))]
    rw [List.foldl_cons, ih, hkeys]
    intro f hf
    rw [hkeys]
    exact h f (List.mem_cons_of_mem _ hf)

/-! ## Lists under keys -/

/-- A value more at the end of the list under a key. -/
def attach (d : List (κ × List ν)) (k : κ) (v : ν) : List (κ × List ν) :=
  set d k ((d.lookup k).getD [] ++ [v])

/-- The values of the entries, in order, under their keys. -/
def grouped (es : List (κ × ν)) : List (κ × List ν) :=
  es.foldl (fun d e => attach d e.1 e.2) []

/-- A key entered with no values answers as before. -/
theorem getD_setDefault_nil (d : List (κ × List ν)) (k k' : κ) :
    ((setDefault d k []).lookup k').getD [] = (d.lookup k').getD [] := by
  rw [lookup_setDefault]
  cases d.lookup k' <;> split <;> rfl

theorem lookup_attach (d : List (κ × List ν)) (k : κ) (v : ν) (k' : κ) :
    ((attach d k v).lookup k').getD [] =
      (d.lookup k').getD [] ++ if k = k' then [v] else [] := by
  unfold attach
  rw [lookup_set]
  by_cases hk : k = k'
  · subst hk
    simp
  · simp [hk]

theorem lookup_foldl_attach (es : List (κ × ν)) (d : List (κ × List ν)) (k : κ) :
    ((es.foldl (fun d e => attach d e.1 e.2) d).lookup k).getD [] =
      (d.lookup k).getD [] ++ (es.filter fun e => e.1 = k).map Prod.snd := by
  induction es generalizing d with
  | nil => simp
  | cons e es ih =>
    rw [List.foldl_cons, ih, lookup_attach, List.append_assoc]
    by_cases hk : e.1 = k <;> simp [hk]

theorem lookup_grouped (es : List (κ × ν)) (k : κ) :
    ((grouped es).lookup k).getD [] = (es.filter fun e => e.1 = k).map Prod.snd := by
  unfold grouped
  rw [lookup_foldl_attach]
  rfl

theorem nodup_keys_grouped (es : List (κ × ν)) : ((grouped es).map Prod.fst).Nodup := by
  induction es using List.reverseRecOn with
  | nil => exact .nil
  | append_singleton es e ih =>
    unfold grouped
    rw [List.foldl_append]
    exact nodup_keys_set ih _ _

theorem mem_keys_grouped (es : List (κ × ν)) (k : κ) :
    k ∈ (grouped es).map Prod.fst ↔ k ∈ es.map Prod.fst := by
  induction es using List.reverseRecOn with
  | nil => rfl
  | append_singleton es e ih =>
    unfold grouped
    rw [List.foldl_append]
    show k ∈ (set (grouped es) e.1 _).map Prod.fst ↔ _
    rw [keys_set, List.map_append, List.mem_append, ← ih]
    split
    · rename_i hin
      simp only [List.map_cons, List.map_nil, List.mem_singleton]
      exact ⟨.inl, fun h => h.elim id fun heq => heq ▸ hin⟩
    · simp

end Keyed
