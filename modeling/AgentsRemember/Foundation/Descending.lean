import Mathlib.Data.Prod.Lex
import Mathlib.Order.OrderDual
import AgentsRemember.Foundation.Canonical

/-!
# Foundation — Descending

Sorting by a value, the greatest first, where the places break the ties: every
entry is numbered, and the pairs of the value and the negated number are sorted
in reverse. It is the stable sort: entries of one value stay in their order.
-/

namespace Canonical

variable {α β : Type} [LinearOrder β] (value : α → β)

/-- The number of an entry, negated, behind its value; all in reverse. -/
def descendingKey (entry : α × Nat) : (β ×ₗ Int)ᵒᵈ :=
  OrderDual.toDual (toLex (value entry.1, -(entry.2 : Int)))

/-- The entries, the greatest value first. -/
def descending (xs : List α) : List α :=
  (sorted (descendingKey value) xs.zipIdx).map Prod.fst

variable {value}

theorem descendingKey_le {a b : α × Nat} :
    descendingKey value a ≤ descendingKey value b ↔
      value b.1 < value a.1 ∨ value b.1 = value a.1 ∧ a.2 ≤ b.2 := by
  rw [descendingKey, descendingKey, OrderDual.toDual_le_toDual, Prod.Lex.toLex_le_toLex]
  simp

theorem descending_perm (xs : List α) : (descending value xs).Perm xs := by
  have hperm : (sorted (descendingKey value) xs.zipIdx).Perm xs.zipIdx := sorted_perm _
  have hvalues := hperm.map Prod.fst
  rwa [List.zipIdx_map_fst] at hvalues

theorem descending_pairwise (xs : List α) :
    (descending value xs).Pairwise fun a b => value b ≤ value a := by
  unfold descending
  rw [List.pairwise_map]
  have h : (sorted (descendingKey value) xs.zipIdx).Pairwise
      fun a b => descendingKey value a ≤ descendingKey value b := sorted_pairwise _
  refine h.imp ?_
  intro a b hab
  rcases descendingKey_le.mp hab with hlt | ⟨heq, -⟩
  · exact hlt.le
  · exact heq.le

theorem zipIdx_pairwise (xs : List α) (n : Nat) :
    (xs.zipIdx n).Pairwise fun a b => a.2 < b.2 := by
  induction xs generalizing n with
  | nil => exact .nil
  | cons x xs ih =>
    rw [List.zipIdx_cons, List.pairwise_cons]
    refine ⟨?_, ih (n + 1)⟩
    intro entry hentry
    exact List.le_snd_of_mem_zipIdx hentry

/-- Entries of one value stay in their order. -/
theorem filter_descending (xs : List α) (t : β) :
    (descending value xs).filter (fun x => value x = t) = xs.filter fun x => value x = t := by
  have hsame : (sorted (descendingKey value) xs.zipIdx).filter (fun a => value a.1 = t) =
      xs.zipIdx.filter fun a => value a.1 = t := by
    have hperm : ((sorted (descendingKey value) xs.zipIdx).filter fun a => value a.1 = t).Perm
        (xs.zipIdx.filter fun a => value a.1 = t) := (sorted_perm _).filter _
    have hsorted : ((sorted (descendingKey value) xs.zipIdx).filter
        fun a => value a.1 = t).Pairwise fun a b => a.2 ≤ b.2 := by
      have h : (sorted (descendingKey value) xs.zipIdx).Pairwise
          fun a b => descendingKey value a ≤ descendingKey value b := sorted_pairwise _
      refine (h.filter _).imp_of_mem ?_
      intro a b ha hb hab
      have hat : value a.1 = t := by simpa using (List.mem_filter.mp ha).2
      have hbt : value b.1 = t := by simpa using (List.mem_filter.mp hb).2
      rcases descendingKey_le.mp hab with hlt | ⟨-, hle⟩
      · rw [hat, hbt] at hlt
        exact absurd hlt (lt_irrefl t)
      · exact hle
    have hnumbered : (xs.zipIdx.filter fun a => value a.1 = t).Pairwise fun a b => a.2 ≤ b.2 :=
      ((zipIdx_pairwise xs 0).filter _).imp Nat.le_of_lt
    refine hperm.eq_of_pairwise ?_ hsorted hnumbered
    intro a b ha hb hab hba
    have hnodup : (xs.zipIdx.map Prod.snd).Nodup :=
      List.pairwise_map.mpr ((zipIdx_pairwise xs 0).imp Nat.ne_of_lt)
    have ha' : a ∈ xs.zipIdx := (List.mem_filter.mp (hperm.mem_iff.mp ha)).1
    have hb' : b ∈ xs.zipIdx := (List.mem_filter.mp hb).1
    exact List.inj_on_of_nodup_map hnodup ha' hb' (Nat.le_antisymm hab hba)
  calc (descending value xs).filter (fun x => value x = t)
      = ((sorted (descendingKey value) xs.zipIdx).filter fun a => value a.1 = t).map Prod.fst := by
        rw [descending, List.filter_map]
        rfl
    _ = (xs.zipIdx.filter fun a => value a.1 = t).map Prod.fst := by rw [hsame]
    _ = (xs.zipIdx.map Prod.fst).filter fun x => value x = t := by
        rw [List.filter_map]
        rfl
    _ = xs.filter fun x => value x = t := by rw [List.zipIdx_map_fst]

/-- What is in order is left as it is, and nothing else is. -/
theorem descending_eq_iff {xs : List α} :
    descending value xs = xs ↔ xs.Pairwise fun a b => value b ≤ value a := by
  constructor
  · intro h
    rw [← h]
    exact descending_pairwise xs
  · intro h
    have hnumbered : xs.zipIdx.Pairwise fun a b =>
        descendingKey value a ≤ descendingKey value b := by
      have hvalues : xs.zipIdx.Pairwise fun a b => value b.1 ≤ value a.1 := by
        rw [← List.zipIdx_map_fst 0 xs] at h
        exact List.pairwise_map.mp h
      refine (hvalues.and (zipIdx_pairwise xs 0)).imp ?_
      intro a b hab
      rw [descendingKey_le]
      rcases hab.1.lt_or_eq with hlt | heq
      · exact .inl hlt
      · exact .inr ⟨heq, hab.2.le⟩
    rw [descending, sorted_eq_iff.mpr hnumbered, List.zipIdx_map_fst]

/-- The last is one of the least value, and of these the one that came last. -/
theorem descending_getLast? {front back : List α} {x : α}
    (hfront : ∀ y ∈ front, value x ≤ value y) (hback : ∀ y ∈ back, value x < value y) :
    (descending value (front ++ x :: back)).getLast? = some x := by
  have hperm : (descending value (front ++ x :: back)).Perm (front ++ x :: back) :=
    descending_perm _
  have hstable : (descending value (front ++ x :: back)).filter (fun y => value y = value x) =
      (front ++ x :: back).filter fun y => value y = value x := filter_descending _ _
  have hbackNone : back.filter (fun y => value y = value x) = [] := by
    rw [List.filter_eq_nil_iff]
    intro y hy
    simpa using (hback y hy).ne'
  rw [List.filter_append, List.filter_cons_of_pos (by simp), hbackNone] at hstable
  obtain ⟨z, hz⟩ : ∃ z, (descending value (front ++ x :: back)).getLast? = some z := by
    rw [← Option.isSome_iff_exists, List.getLast?_isSome]
    intro hnil
    rw [hnil] at hperm
    simp at hperm
  obtain ⟨rest, hrest⟩ := List.getLast?_eq_some_iff.mp hz
  -- the last is not above the others, so it is of the least value
  have hleast : value z = value x := by
    have hx : x ∈ descending value (front ++ x :: back) :=
      hperm.mem_iff.mpr (by simp)
    have hzx : value z ≤ value x := by
      have hpairwise : (descending value (front ++ x :: back)).Pairwise
          fun a b => value b ≤ value a := descending_pairwise _
      rw [hrest, List.pairwise_append] at hpairwise
      rw [hrest, List.mem_append, List.mem_singleton] at hx
      rcases hx with hx | rfl
      · exact hpairwise.2.2 x hx z (by simp)
      · exact le_refl _
    have hz' : z ∈ front ++ x :: back := by
      rw [← hperm.mem_iff, hrest]
      simp
    rw [List.mem_append, List.mem_cons] at hz'
    rcases hz' with h | rfl | h
    · exact le_antisymm hzx (hfront z h)
    · rfl
    · exact absurd hzx (not_le.mpr (hback z h))
  rw [hrest, List.filter_append, List.filter_cons_of_pos (by simpa using hleast),
    List.filter_nil] at hstable
  have hlast := congrArg List.getLast? hstable
  rw [List.getLast?_append, List.getLast?_append] at hlast
  rw [hz]
  simpa using hlast

/-- There is a last one among those of the least value. -/
theorem exists_last_least {xs : List α} (hne : xs ≠ []) :
    ∃ front x back, xs = front ++ x :: back ∧ (∀ y ∈ front, value x ≤ value y) ∧
      ∀ y ∈ back, value x < value y := by
  induction xs with
  | nil => exact absurd rfl hne
  | cons x xs ih =>
    by_cases hnil : xs = []
    · exact ⟨[], x, [], by rw [hnil]; rfl, by simp, by simp⟩
    · obtain ⟨front, z, back, hxs, hfront, hback⟩ := ih hnil
      rcases lt_or_ge (value x) (value z) with hlt | hge
      · refine ⟨[], x, xs, rfl, by simp, fun y hy => ?_⟩
        rw [hxs, List.mem_append, List.mem_cons] at hy
        rcases hy with hy | rfl | hy
        · exact lt_of_lt_of_le hlt (hfront y hy)
        · exact hlt
        · exact hlt.trans (hback y hy)
      · refine ⟨x :: front, z, back, by rw [hxs]; rfl, fun y hy => ?_, hback⟩
        rcases List.mem_cons.mp hy with rfl | hy
        · exact hge
        · exact hfront y hy

end Canonical
