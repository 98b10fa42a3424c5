import Mathlib.Data.List.Sort
import AgentsRemember.Foundation.Attempts
import AgentsRemember.Foundation.Keyed

/-!
# Foundation — Canonical

Sets written down as lists: sorted by a key, each identity once. Two canonical
lists with the same members are the same list. A catalog collects entries under
their identities and stops at two different entries under one.
-/

namespace Canonical

variable {α β κ : Type}

section sorting
variable [LinearOrder β] (key : α → β)

/-- The entries in the order of their keys, equal keys in the order they came. -/
def sorted (xs : List α) : List α := xs.insertionSort fun a b => key a ≤ key b

variable {key}

theorem mem_sorted {xs : List α} {x : α} : x ∈ sorted key xs ↔ x ∈ xs :=
  List.mem_insertionSort _

theorem sorted_perm (xs : List α) : (sorted key xs).Perm xs := List.perm_insertionSort _ xs

theorem sorted_pairwise (xs : List α) : (sorted key xs).Pairwise fun a b => key a ≤ key b := by
  have htotal : Std.Total fun a b : α => key a ≤ key b := ⟨fun a b => le_total (key a) (key b)⟩
  have htrans : IsTrans α fun a b : α => key a ≤ key b := ⟨fun _ _ _ => le_trans⟩
  exact List.pairwise_insertionSort _ xs

theorem sorted_eq_iff {xs : List α} :
    sorted key xs = xs ↔ xs.Pairwise fun a b => key a ≤ key b := by
  constructor
  · intro h
    rw [← h]
    exact sorted_pairwise xs
  · exact List.Pairwise.insertionSort_eq

end sorting

/-! ## Canonical lists -/

section canonical
variable [LinearOrder β] (key : α → β) (identity : α → κ)

/-- In the order of the keys, and no identity twice. -/
def IsCanonical (xs : List α) : Prop := sorted key xs = xs ∧ (xs.map identity).Nodup

instance [DecidableEq α] [DecidableEq κ] (xs : List α) : Decidable (IsCanonical key identity xs) :=
  inferInstanceAs (Decidable (_ ∧ _))

variable {key identity}

theorem IsCanonical.filter {xs : List α} (h : IsCanonical key identity xs) (p : α → Bool) :
    IsCanonical key identity (xs.filter p) := by
  obtain ⟨hsorted, hnodup⟩ := h
  refine ⟨sorted_eq_iff.mpr ((sorted_eq_iff.mp hsorted).filter p), ?_⟩
  exact hnodup.sublist (List.filter_sublist.map identity)

/-- Canonical lists with the same members are the same, when the key tells the identity. -/
theorem IsCanonical.ext (hkey : ∀ a b, key a = key b → identity a = identity b) {xs ys : List α}
    (hx : IsCanonical key identity xs) (hy : IsCanonical key identity ys)
    (h : ∀ a, a ∈ xs ↔ a ∈ ys) : xs = ys := by
  have hperm : xs.Perm ys := (List.perm_ext_iff_of_nodup hx.2.of_map hy.2.of_map).mpr h
  refine hperm.eq_of_pairwise ?_ (sorted_eq_iff.mp hx.1) (sorted_eq_iff.mp hy.1)
  intro a b ha hb hab hba
  exact List.inj_on_of_nodup_map hx.2 ha ((h b).mpr hb) (hkey a b (le_antisymm hab hba))

end canonical

/-! ## Catalogs -/

section catalogs
variable {ε : Type} [DecidableEq α] [DecidableEq κ] [LinearOrder β] (key : α → β) (identity : α → κ)
  (conflict : α → ε)

/-- One entry more; a different one under the same identity is refused. -/
def enter (catalog : List (κ × α)) (x : α) : Except ε (List (κ × α)) :=
  match catalog.lookup (identity x) with
  | some prior =>
    if prior ≠ x then .error (conflict x) else .ok (Keyed.set catalog (identity x) x)
  | none => .ok (Keyed.set catalog (identity x) x)

/-- The entries under their identities; two different ones under one are a conflict. -/
def collect (xs : List α) : Except ε (List (κ × α)) := xs.foldlM (enter identity conflict) []

/-- The entries sorted, a conflict refused. -/
def canonicalize (xs : List α) : Except ε (List α) :=
  (collect identity conflict xs).map fun catalog => sorted key (catalog.map Prod.snd)

variable {key identity conflict}

theorem enter_eq_ok {catalog entered : List (κ × α)} {x : α} :
    enter identity conflict catalog x = .ok entered ↔
      (∀ prior, catalog.lookup (identity x) = some prior → prior = x) ∧
        entered = Keyed.set catalog (identity x) x := by
  unfold enter
  cases h : catalog.lookup (identity x) with
  | none => simp [eq_comm]
  | some prior =>
    by_cases hprior : prior = x
    · simp [hprior, eq_comm]
    · simp [hprior]

/-- A catalog holds its entries under their own identities, and no identity twice. -/
def Cataloged (identity : α → κ) (catalog : List (κ × α)) : Prop :=
  (catalog.map Prod.fst).Nodup ∧ ∀ e ∈ catalog, identity e.2 = e.1

omit [DecidableEq α] in
theorem Cataloged.mem_values {catalog : List (κ × α)} (h : Cataloged identity catalog) {a : α} :
    a ∈ catalog.map Prod.snd ↔ catalog.lookup (identity a) = some a := by
  rw [List.mem_map]
  constructor
  · rintro ⟨e, he, rfl⟩
    apply Keyed.lookup_of_mem h.1
    rw [h.2 e he]
    exact he
  · exact fun hlook => ⟨_, Keyed.mem_of_lookup hlook, rfl⟩

theorem Cataloged.enter {catalog entered : List (κ × α)} {x : α} (h : Cataloged identity catalog)
    (henter : Canonical.enter identity conflict catalog x = .ok entered) :
    Cataloged identity entered ∧
      ∀ a, a ∈ entered.map Prod.snd ↔ a ∈ catalog.map Prod.snd ∨ a = x := by
  obtain ⟨hprior, rfl⟩ := enter_eq_ok.mp henter
  have hentered : Cataloged identity (Keyed.set catalog (identity x) x) := by
    refine ⟨Keyed.nodup_keys_set h.1 _ _, fun e he => ?_⟩
    rcases Keyed.mem_set he with ⟨hk, hv⟩ | he
    · rw [hk, hv]
    · exact h.2 e he
  refine ⟨hentered, fun a => ?_⟩
  rw [hentered.mem_values, h.mem_values, Keyed.lookup_set]
  by_cases hid : identity x = identity a
  · rw [if_pos hid, Option.some.injEq]
    exact ⟨fun h => .inr h.symm, fun h => h.elim (fun hlook => (hprior a (hid ▸ hlook)).symm) Eq.symm⟩
  · rw [if_neg hid]
    exact ⟨.inl, fun h => h.elim id fun heq => absurd (congrArg identity heq.symm) hid⟩

theorem Cataloged.collect {xs : List α} {catalog entered : List (κ × α)}
    (h : Cataloged identity catalog)
    (hcollect : xs.foldlM (Canonical.enter identity conflict) catalog = .ok entered) :
    Cataloged identity entered ∧
      ∀ a, a ∈ entered.map Prod.snd ↔ a ∈ catalog.map Prod.snd ∨ a ∈ xs := by
  induction xs generalizing catalog with
  | nil =>
    cases hcollect
    exact ⟨h, fun a => by simp⟩
  | cons x xs ih =>
    rw [List.foldlM_cons, Attempts.bind_eq_ok] at hcollect
    obtain ⟨next, hnext, hrest⟩ := hcollect
    obtain ⟨hcataloged, hmem⟩ := h.enter hnext
    obtain ⟨hentered, hmem'⟩ := ih hcataloged hrest
    refine ⟨hentered, fun a => ?_⟩
    rw [hmem', hmem, List.mem_cons, or_assoc]

theorem collect_error {xs : List α} {catalog : List (κ × α)} {e : ε}
    (h : xs.foldlM (enter identity conflict) catalog = .error e) : ∃ x ∈ xs, e = conflict x := by
  induction xs generalizing catalog with
  | nil => cases h
  | cons x xs ih =>
    rw [List.foldlM_cons, Attempts.bind_eq_error] at h
    obtain hx | ⟨next, -, hrest⟩ := h
    · refine ⟨x, List.mem_cons_self, ?_⟩
      unfold enter at hx
      split at hx
      · split at hx
        · exact (Except.error.inj hx).symm
        · cases hx
      · cases hx
    · obtain ⟨y, hy, he⟩ := ih hrest
      exact ⟨y, List.mem_cons_of_mem x hy, he⟩

/-- Two entries under one identity are all that there is to refuse. -/
theorem canonicalize_error {xs : List α} {e : ε}
    (h : canonicalize key identity conflict xs = .error e) : ∃ x ∈ xs, e = conflict x := by
  unfold canonicalize at h
  cases hcollect : collect identity conflict xs with
  | error e' =>
    rw [hcollect] at h
    cases h
    exact collect_error hcollect
  | ok catalog =>
    rw [hcollect] at h
    cases h

/-- What a canonical form is: canonical, and of the same members. -/
theorem canonicalize_spec {xs ys : List α} (h : canonicalize key identity conflict xs = .ok ys) :
    IsCanonical key identity ys ∧ ∀ a, a ∈ ys ↔ a ∈ xs := by
  unfold canonicalize at h
  cases hcollect : collect identity conflict xs with
  | error e =>
    rw [hcollect] at h
    cases h
  | ok catalog =>
    rw [hcollect] at h
    cases h
    have hempty : Cataloged identity ([] : List (κ × α)) := ⟨.nil, fun _ h => absurd h List.not_mem_nil⟩
    obtain ⟨hcataloged, hmem⟩ := hempty.collect hcollect
    refine ⟨⟨sorted_eq_iff.mpr (sorted_pairwise _), ?_⟩, fun a => ?_⟩
    · have hkeys : (catalog.map Prod.snd).map identity = catalog.map Prod.fst := by
        rw [List.map_map]
        exact List.map_congr_left hcataloged.2
      have hperm : ((sorted key (catalog.map Prod.snd)).map identity).Perm
          ((catalog.map Prod.snd).map identity) := (sorted_perm _).map identity
      rw [hperm.nodup_iff, hkeys]
      exact hcataloged.1
    · rw [mem_sorted, hmem]
      simp

end catalogs

end Canonical
