import Mathlib.Data.List.Pairwise
import Mathlib.Data.List.Perm.Basic
import Mathlib.Data.Prod.Lex

/-!
# Foundation — Ranked

Sorting by a key, and a place and an offset packed into one number: the packed
numbers are in the order of the pairs as long as no offset reaches over the
places between.
-/

namespace Ranked

section sorting
variable {α β : Type} [LinearOrder β] (key : α → β)

/-- The stable sort by a key. -/
def sortBy (xs : List α) : List α := xs.mergeSort fun a b => decide (key a ≤ key b)

variable {key} {xs : List α}

theorem mem_sortBy {a : α} : a ∈ sortBy key xs ↔ a ∈ xs := List.mem_mergeSort

theorem sortBy_pairwise : (sortBy key xs).Pairwise fun a b => key a ≤ key b := by
  have htrans : ∀ a b c : α, decide (key a ≤ key b) = true → decide (key b ≤ key c) = true →
      decide (key a ≤ key c) = true := by
    intro a b c hab hbc
    simp only [decide_eq_true_eq] at hab hbc ⊢
    exact le_trans hab hbc
  have htotal : ∀ a b : α, (decide (key a ≤ key b) || decide (key b ≤ key a)) = true := by
    intro a b
    simpa using le_total (key a) (key b)
  exact (List.pairwise_mergeSort htrans htotal xs).imp of_decide_eq_true

/-- Keys that differ are sorted strictly. -/
theorem sortBy_pairwise_lt (h : (xs.map key).Nodup) :
    (sortBy key xs).Pairwise fun a b => key a < key b := by
  have hperm : ((sortBy key xs).map key).Perm (xs.map key) := (List.mergeSort_perm xs _).map key
  have hne := List.pairwise_map.mp (hperm.nodup_iff.mpr h)
  exact (sortBy_pairwise.and hne).imp fun hab => lt_of_le_of_ne hab.1 hab.2

theorem pair_sublist_iff (h : (xs.map key).Nodup) {a b : α} (ha : a ∈ xs) (hb : b ∈ xs) :
    [a, b].Sublist (sortBy key xs) ↔ key a < key b := by
  have hsorted := sortBy_pairwise_lt h
  constructor
  · intro hsub
    have hpair := List.Pairwise.sublist hsub hsorted
    simpa using hpair
  · intro hlt
    obtain ⟨front, back, hsplit⟩ := List.append_of_mem (mem_sortBy.mpr ha : a ∈ sortBy key xs)
    have hmem : b ∈ front ++ a :: back := hsplit ▸ mem_sortBy.mpr hb
    rw [hsplit] at hsorted ⊢
    obtain ⟨-, -, hfront⟩ := List.pairwise_append.mp hsorted
    rcases List.mem_append.mp hmem with hb' | hb'
    · exact absurd (hfront b hb' a (by simp)) (lt_asymm hlt)
    · rcases List.mem_cons.mp hb' with rfl | hb'
      · exact absurd hlt (lt_irrefl _)
      · have htail : [a, b].Sublist (a :: back) :=
          (List.singleton_sublist.mpr hb').cons_cons a
        exact htail.trans (List.sublist_append_right front _)

/-- What is found first has the least key of all that could be found. -/
theorem find?_sortBy_le {p : α → Bool} {a b : α} (hfind : (sortBy key xs).find? p = some a)
    (hb : b ∈ xs) (hp : p b = true) : key a ≤ key b := by
  have hsorted : (sortBy key xs).Pairwise fun a b => key a ≤ key b := sortBy_pairwise
  obtain ⟨-, front, back, hsplit, hfront⟩ := List.find?_eq_some_iff_append.mp hfind
  have hmem : b ∈ front ++ a :: back := hsplit ▸ mem_sortBy.mpr hb
  rw [hsplit] at hsorted
  obtain ⟨-, hback, -⟩ := List.pairwise_append.mp hsorted
  rcases List.mem_append.mp hmem with hb' | hb'
  · have := hfront b hb'
    rw [hp] at this
    cases this
  · rcases List.mem_cons.mp hb' with rfl | hb'
    · exact le_rfl
    · exact (List.pairwise_cons.mp hback).1 b hb'

end sorting

/-! ## Packed positions -/

section packing
variable {radix place place' offset offset' : Nat}

theorem mul_radix_of_lt (h : place < place') :
    place' * radix = place * radix + radix * (place' - place) := by
  rw [Nat.mul_comm radix, ← Nat.add_mul, Nat.add_sub_cancel' h.le]

theorem packed_lt_iff (h : place < place') :
    place * radix + offset < place' * radix + offset' ↔
      offset < radix * (place' - place) + offset' := by
  rw [mul_radix_of_lt h]
  omega

theorem packed_eq_iff (h : place < place') :
    place * radix + offset = place' * radix + offset' ↔
      offset = radix * (place' - place) + offset' := by
  rw [mul_radix_of_lt h]
  omega

end packing

end Ranked
