import Mathlib.Data.List.MinMax

/-!
# Foundation — Newest

The first greatest element of a list, as `List.argmax` picks it, when the
list changes around it: dropping others keeps it, and one element in the
middle is picked exactly when it beats what stands in front and is not beaten
from behind; else the rest decides.
-/

namespace Newest

variable {α β : Type} [LinearOrder β] {f : α → β}

theorem argmax_append (xs ys : List α) :
    (xs ++ ys).argmax f =
      match xs.argmax f, ys.argmax f with
      | none, b => b
      | a, none => a
      | some x, some y => if f x < f y then some y else some x := by
  induction xs with
  | nil => simp
  | cons a xs ih =>
    rw [List.cons_append, List.argmax_cons, List.argmax_cons, ih]
    cases hx : xs.argmax f with
    | none =>
      cases hy : ys.argmax f with
      | none => rfl
      | some y => rfl
    | some x =>
      cases hy : ys.argmax f with
      | none =>
        by_cases hax : f a < f x <;> simp [hax]
      | some y =>
        by_cases hxy : f x < f y
        · by_cases hay : f a < f y
          · by_cases hax : f a < f x <;> simp [hxy, hay, hax]
          · have hax : ¬f a < f x := fun h => hay (lt_trans h hxy)
            simp [hxy, hay, hax]
        · by_cases hax : f a < f x
          · simp [hxy, hax]
          · have hay : ¬f a < f y := fun h => hxy (lt_of_le_of_lt (not_lt.mp hax) h)
            simp [hxy, hax, hay]

/-- What holds of the greatest holds of all, where it is an upper bound. -/
theorem forall_lt_iff {xs : List α} {x : α} (h : xs.argmax f = some x) (b : β) :
    (∀ z ∈ xs, f z < b) ↔ f x < b := by
  constructor
  · intro hall
    exact hall x (List.argmax_mem h)
  · intro hx z hz
    exact lt_of_le_of_lt (List.le_of_mem_argmax hz h) hx

theorem forall_le_iff {xs : List α} {x : α} (h : xs.argmax f = some x) (b : β) :
    (∀ z ∈ xs, f z ≤ b) ↔ f x ≤ b := by
  constructor
  · intro hall
    exact hall x (List.argmax_mem h)
  · intro hx z hz
    exact le_trans (List.le_of_mem_argmax hz h) hx

/-- An element in the middle is picked when it beats what is in front of it
and nothing behind beats it; else the others decide. -/
theorem argmax_middle (xs ys : List α) (a : α) :
    (xs ++ a :: ys).argmax f =
      if (∀ x ∈ xs, f x < f a) ∧ (∀ y ∈ ys, f y ≤ f a) then some a
      else (xs ++ ys).argmax f := by
  rw [argmax_append, argmax_append, List.argmax_cons]
  cases hx : xs.argmax f with
  | none =>
    obtain rfl := List.argmax_eq_none.mp hx
    cases hy : ys.argmax f with
    | none =>
      obtain rfl := List.argmax_eq_none.mp hy
      simp
    | some y =>
      simp only [forall_le_iff hy]
      by_cases hay : f a < f y
      · simp [hay]
      · simp [hay, not_lt.mp hay]
  | some x =>
    cases hy : ys.argmax f with
    | none =>
      obtain rfl := List.argmax_eq_none.mp hy
      simp only [forall_lt_iff hx]
      by_cases hxa : f x < f a <;> simp [hxa]
    | some y =>
      simp only [forall_lt_iff hx, forall_le_iff hy]
      by_cases hay : f a < f y
      · simp [hay]
      · by_cases hxa : f x < f a
        · simp [hay, hxa, not_lt.mp hay]
        · -- the first part already holds what is behind
          have hxy : ¬f x < f y := fun h =>
            hxa (lt_of_lt_of_le h (not_lt.mp hay))
          simp [hay, hxa, hxy]

/-- Dropping other elements keeps the one picked. -/
theorem argmax_filter {p : α → Bool} {xs : List α} {m : α} (h : xs.argmax f = some m)
    (hm : p m = true) : (xs.filter p).argmax f = some m := by
  induction xs with
  | nil => cases h
  | cons a xs ih =>
    rw [List.argmax_cons] at h
    cases hx : xs.argmax f with
    | none =>
      rw [hx] at h
      cases h
      rw [List.argmax_eq_none.mp hx]
      simp [hm]
    | some c =>
      rw [hx] at h
      simp only at h
      by_cases hac : f a < f c
      · rw [if_pos hac] at h
        cases h
        have hrest := ih hx
        by_cases ha : p a = true
        · rw [List.filter_cons_of_pos ha, List.argmax_cons, hrest]
          simp [hac]
        · rw [List.filter_cons_of_neg ha, hrest]
      · rw [if_neg hac] at h
        cases h
        rw [List.filter_cons_of_pos hm, List.argmax_cons]
        cases hr : (xs.filter p).argmax f with
        | none => rfl
        | some d =>
          have hd : d ∈ xs := (List.mem_filter.mp (List.argmax_mem hr)).1
          have hmd : ¬f m < f d := fun h =>
            hac (lt_of_lt_of_le h (List.le_of_mem_argmax hd hx))
          simp [hmd]

end Newest
