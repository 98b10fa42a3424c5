import Mathlib.Data.List.Sort

/-!
# Foundation — Deduped

Lists without their repetitions, each element where it stood first, and the
sorted lists of them, which are told by their elements.
-/

namespace Deduped

section
variable {α β : Type} [DecidableEq α] [DecidableEq β]

theorem nodup_eraseDups (l : List α) : l.eraseDups.Nodup := by
  induction hsize : l.length using Nat.strong_induction_on generalizing l with
  | _ size ih =>
    cases l with
    | nil => simp
    | cons a l =>
      have hlt : (l.filter fun b => !b == a).length < size := by
        have := List.length_filter_le (fun b => !b == a) l
        rw [List.length_cons] at hsize
        omega
      rw [List.eraseDups_cons, List.nodup_cons]
      refine ⟨?_, ih _ hlt _ rfl⟩
      simp [List.mem_eraseDups]

theorem eraseDups_eq_nil {l : List α} : l.eraseDups = [] ↔ l = [] := by
  cases l with
  | nil => simp
  | cons a l => simp [List.eraseDups_cons]

theorem eraseDups_of_nodup {l : List α} (h : l.Nodup) : l.eraseDups = l := by
  induction l with
  | nil => rfl
  | cons a l ih =>
    obtain ⟨hmem, hl⟩ := List.nodup_cons.mp h
    have hfilter : (l.filter fun b => !b == a) = l := by
      rw [List.filter_eq_self]
      intro b hb
      have hne : b ≠ a := fun heq => hmem (heq ▸ hb)
      simpa using hne
    rw [List.eraseDups_cons, hfilter, ih hl]

theorem eraseDups_append_of_disjoint {as bs : List α} (h : ∀ b ∈ bs, b ∉ as) :
    (as ++ bs).eraseDups = as.eraseDups ++ bs.eraseDups := by
  have hremove : bs.removeAll as = bs := by
    rw [List.removeAll, List.filter_eq_self]
    intro b hb
    simpa using h b hb
  rw [List.eraseDups_append, hremove]

/-- A function that tells the elements of a list apart keeps its repetitions. -/
theorem eraseDups_map {f : α → β} {l : List α} (h : ∀ a ∈ l, ∀ b ∈ l, f a = f b → a = b) :
    (l.map f).eraseDups = l.eraseDups.map f := by
  induction hsize : l.length using Nat.strong_induction_on generalizing l with
  | _ size ih =>
    cases l with
    | nil => rfl
    | cons a l =>
      have hlt : (l.filter fun b => !b == a).length < size := by
        have := List.length_filter_le (fun b => !b == a) l
        rw [List.length_cons] at hsize
        omega
      have hfilter : (l.map f).filter (fun b => !b == f a) =
          (l.filter fun b => !b == a).map f := by
        rw [List.filter_map]
        congr 1
        refine List.filter_congr fun b hb => ?_
        have hiff : f b = f a ↔ b = a :=
          ⟨h b (List.mem_cons_of_mem _ hb) a List.mem_cons_self, fun heq => heq ▸ rfl⟩
        simp [hiff]
      rw [List.map_cons, List.eraseDups_cons, List.eraseDups_cons, List.map_cons, hfilter]
      congr 1
      refine ih _ hlt (fun b hb c hc => ?_) rfl
      exact h b (List.mem_cons_of_mem _ (List.mem_of_mem_filter hb)) c
        (List.mem_cons_of_mem _ (List.mem_of_mem_filter hc))

variable (r : α → α → Prop) [DecidableRel r] [Std.Total r] [IsTrans α r] [Std.Antisymm r]

theorem sorted_congr {as bs : List α} (h : ∀ a, a ∈ as ↔ a ∈ bs) :
    as.eraseDups.insertionSort r = bs.eraseDups.insertionSort r := by
  have hperm : as.eraseDups.Perm bs.eraseDups := by
    rw [List.perm_ext_iff_of_nodup (nodup_eraseDups as) (nodup_eraseDups bs)]
    intro a
    rw [List.mem_eraseDups, List.mem_eraseDups, h]
  exact (((List.perm_insertionSort r _).trans hperm).trans
    (List.perm_insertionSort r _).symm).eq_of_pairwise'
    (List.pairwise_insertionSort r _) (List.pairwise_insertionSort r _)

end

end Deduped
