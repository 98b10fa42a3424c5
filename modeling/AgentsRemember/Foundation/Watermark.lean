import Mathlib.Data.List.Basic

/-!
# Foundation — Watermark

A log whose entries have increasing positions, read page by page by someone who
keeps only a mark: the position of the last entry it has read.

`Cut` says that a mark splits the log into what was read and what is still to
come. A page is a front part of the rest; reading it moves the mark and the cut.
-/

namespace Watermark

variable {α : Type} (pos : α → Nat)

/-- The mark parts what was read from what was not. -/
structure Cut (log : List α) (mark : Nat) (read rest : List α) : Prop where
  split : log = read ++ rest
  behind : ∀ x ∈ read, pos x ≤ mark
  ahead : ∀ x ∈ rest, mark < pos x

/-- The mark behind a page: its last position, or where it was. -/
def after (mark : Nat) (page : List α) : Nat := ((page.map pos).getLast?).getD mark

variable {pos} {log read rest : List α} {mark : Nat}

theorem Cut.start (h : ∀ x ∈ log, 0 < pos x) : Cut pos log 0 [] log := ⟨rfl, by simp, h⟩

theorem Cut.filter_le (h : Cut pos log mark read rest) :
    (log.filter fun x => pos x ≤ mark) = read := by
  have hread : (read.filter fun x => pos x ≤ mark) = read :=
    List.filter_eq_self.mpr fun x hx => decide_eq_true (h.behind x hx)
  have hrest : (rest.filter fun x => pos x ≤ mark) = [] :=
    List.filter_eq_nil_iff.mpr fun x hx => by simpa using h.ahead x hx
  rw [h.split, List.filter_append, hread, hrest, List.append_nil]

/-- Any mark cuts a log whose positions increase. -/
theorem Cut.of_mark (hinc : log.Pairwise fun a b => pos a < pos b) (mark : Nat) :
    Cut pos log mark (log.filter fun x => pos x ≤ mark) (log.filter fun x => mark < pos x) where
  split := by
    induction log with
    | nil => rfl
    | cons x log ih =>
      obtain ⟨hx, hlog⟩ := List.pairwise_cons.mp hinc
      by_cases hle : pos x ≤ mark
      · have hnot : ¬mark < pos x := by omega
        simp only [List.filter_cons, hle, hnot, decide_true, decide_false, if_true]
        exact congrArg (x :: ·) (ih hlog)
      · -- what comes behind an entry beyond the mark is beyond it as well
        have hlt : mark < pos x := by omega
        have hfront : ((x :: log).filter fun y => pos y ≤ mark) = [] := by
          rw [List.filter_eq_nil_iff]
          intro y hy
          rcases List.mem_cons.mp hy with rfl | hy
          · simpa using hlt
          · simpa using Nat.lt_trans hlt (hx y hy)
        have hback : ((x :: log).filter fun y => mark < pos y) = x :: log := by
          rw [List.filter_eq_self]
          intro y hy
          rcases List.mem_cons.mp hy with rfl | hy
          · exact decide_eq_true hlt
          · exact decide_eq_true (Nat.lt_trans hlt (hx y hy))
        rw [hfront, hback, List.nil_append]
  behind := fun x hx => of_decide_eq_true (List.mem_filter.mp hx).2
  ahead := fun x hx => of_decide_eq_true (List.mem_filter.mp hx).2

/-- What is unread of the first `m` entries of the log. -/
theorem Cut.unread (h : Cut pos log mark read rest) (m : Nat) :
    ((log.take m).filter fun x => mark < pos x) = rest.take (m - read.length) := by
  have hread : ∀ l : List α, (∀ x ∈ l, x ∈ read) → (l.filter fun x => mark < pos x) = [] := by
    intro l hl
    rw [List.filter_eq_nil_iff]
    intro x hx
    simpa using h.behind x (hl x hx)
  have hrest : ∀ l : List α, (∀ x ∈ l, x ∈ rest) → (l.filter fun x => mark < pos x) = l := by
    intro l hl
    rw [List.filter_eq_self]
    intro x hx
    exact decide_eq_true (h.ahead x (hl x hx))
  rw [h.split, List.take_append, List.filter_append, hread _ fun x => List.mem_of_mem_take,
    hrest _ fun x => List.mem_of_mem_take, List.nil_append]

theorem Cut.advance (hinc : log.Pairwise fun a b => pos a < pos b)
    (h : Cut pos log mark read rest) (k : Nat) :
    Cut pos log (after pos mark (rest.take k)) (read ++ rest.take k) (rest.drop k) where
  split := by rw [List.append_assoc, List.take_append_drop, h.split]
  behind := by
    intro x hx
    unfold after
    cases hlast : ((rest.take k).map pos).getLast? with
    | none =>
      rw [List.getLast?_eq_none_iff, List.map_eq_nil_iff] at hlast
      rw [hlast, List.append_nil] at hx
      exact h.behind x hx
    | some last =>
      obtain ⟨front, hfront⟩ := List.getLast?_eq_some_iff.mp hlast
      have hmem : last ∈ (rest.take k).map pos := by simp [hfront]
      obtain ⟨y, hy, rfl⟩ := List.mem_map.mp hmem
      have hlate := h.ahead y (List.mem_of_mem_take hy)
      rcases List.mem_append.mp hx with hx | hx
      · have := h.behind x hx
        show pos x ≤ pos y
        omega
      · -- the positions of the page increase up to its last one
        have hpage : ((rest.take k).map pos).Pairwise (· < ·) := by
          rw [List.pairwise_map]
          rw [h.split] at hinc
          exact (List.pairwise_append.mp hinc).2.1.sublist (List.take_sublist _ _)
        rw [hfront] at hpage
        have hxmem : pos x ∈ front ++ [pos y] := by
          rw [← hfront]
          exact List.mem_map.mpr ⟨x, hx, rfl⟩
        rcases List.mem_append.mp hxmem with hx' | hx'
        · exact Nat.le_of_lt ((List.pairwise_append.mp hpage).2.2 _ hx' _ (by simp))
        · exact Nat.le_of_eq (List.mem_singleton.mp hx')
  ahead := by
    intro x hx
    unfold after
    cases hlast : ((rest.take k).map pos).getLast? with
    | none => exact h.ahead x (List.mem_of_mem_drop hx)
    | some last =>
      have hmem : last ∈ (rest.take k).map pos := List.mem_of_getLast? hlast
      obtain ⟨y, hy, rfl⟩ := List.mem_map.mp hmem
      rw [h.split] at hinc
      have hrest := (List.pairwise_append.mp hinc).2.1
      rw [← List.take_append_drop k rest] at hrest
      exact (List.pairwise_append.mp hrest).2.2 y hy x hx

/-! ## A reader that starts at a floor -/

/-- What a reader has read that started at `floor` and stands at `mark`. -/
def between (pos : α → Nat) (log : List α) (floor mark : Nat) : List α :=
  (log.filter fun x => pos x ≤ mark).filter fun x => floor < pos x

theorem mem_between {floor : Nat} {x : α} :
    x ∈ between pos log floor mark ↔ x ∈ log ∧ floor < pos x ∧ pos x ≤ mark := by
  simp only [between, List.mem_filter, decide_eq_true_eq]
  constructor
  · intro h; exact ⟨h.1.1, h.2, h.1.2⟩
  · intro h; exact ⟨⟨h.1, h.2.2⟩, h.2.1⟩

theorem between_self (floor : Nat) : between pos log floor floor = [] := by
  rw [List.eq_nil_iff_forall_not_mem]
  intro x hx
  obtain ⟨-, hlt, hle⟩ := mem_between.mp hx
  omega

/-- What comes after the floor is what was read and what is still to come. -/
theorem after_floor (hinc : log.Pairwise fun a b => pos a < pos b) {floor : Nat}
    (hfloor : floor ≤ mark) : (log.filter fun x => floor < pos x) =
      between pos log floor mark ++ log.filter fun x => mark < pos x := by
  have hcut := Cut.of_mark hinc mark
  have hrest : ((log.filter fun x => mark < pos x).filter fun x => floor < pos x) =
      log.filter fun x => mark < pos x := by
    rw [List.filter_eq_self]
    intro x hx
    exact decide_eq_true (Nat.lt_of_le_of_lt hfloor (hcut.ahead x hx))
  calc (log.filter fun x => floor < pos x)
    _ = ((log.filter fun x => pos x ≤ mark) ++ log.filter fun x => mark < pos x).filter
          (fun x => floor < pos x) := congrArg (List.filter _) hcut.split
    _ = _ := by rw [List.filter_append, hrest, between]

/-- A page moves from what is still to come to what was read. -/
theorem between_page (hinc : log.Pairwise fun a b => pos a < pos b) {floor : Nat}
    (hfloor : floor ≤ mark) (k : Nat) :
    between pos log floor (after pos mark ((log.filter fun x => mark < pos x).take k)) =
      between pos log floor mark ++ (log.filter fun x => mark < pos x).take k := by
  have hcut := Cut.of_mark hinc mark
  have hpage : (((log.filter fun x => mark < pos x).take k).filter fun x => floor < pos x) =
      (log.filter fun x => mark < pos x).take k := by
    rw [List.filter_eq_self]
    intro x hx
    exact decide_eq_true (Nat.lt_of_le_of_lt hfloor (hcut.ahead x (List.mem_of_mem_take hx)))
  rw [between, (hcut.advance hinc k).filter_le, List.filter_append, hpage, between]

theorem le_after (mark : Nat) {page : List α} (h : ∀ x ∈ page, mark < pos x) :
    mark ≤ after pos mark page := by
  unfold after
  cases hlast : (page.map pos).getLast? with
  | none => exact Nat.le_refl mark
  | some last =>
    obtain ⟨x, hx, rfl⟩ := List.mem_map.mp (List.mem_of_getLast? hlast)
    exact Nat.le_of_lt (h x hx)

theorem after_le {mark bound : Nat} {page : List α} (hmark : mark ≤ bound)
    (h : ∀ x ∈ page, pos x ≤ bound) : after pos mark page ≤ bound := by
  unfold after
  cases hlast : (page.map pos).getLast? with
  | none => exact hmark
  | some last =>
    obtain ⟨x, hx, rfl⟩ := List.mem_map.mp (List.mem_of_getLast? hlast)
    exact h x hx

end Watermark
