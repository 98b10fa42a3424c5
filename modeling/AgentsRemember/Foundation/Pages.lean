import Mathlib.Data.List.Pairwise
import Mathlib.Data.List.Range

/-!
# Foundation — Pages

Reading a population page by page while it moves. The rows are numbered; a
page holds some rows above a cursor, in order and without a gap, and says
whether it was cut; the cursor of the next page is the last number served.

Rows come and go between the pages. `Moves` is all that is asked of that: a new
row is numbered above every number used so far, and a row that goes lies at or
below the floor. Then what a finished reading does not hold was let go while it
was read (`mem_readThrough_or`).
-/

namespace Pages

/-- A page, and whether it was cut. -/
structure Page (ι : Type) where
  items : List ι
  truncated : Bool

variable {ι : Type} (number : ι → Nat)

/-- What a page owes its reader: `live` are the numbers of the rows there are. -/
structure Serves (live : Nat → Prop) (after : Nat) (page : Page ι) : Prop where
  sorted : (page.items.map number).Pairwise (· < ·)
  sound : ∀ n ∈ page.items.map number, live n ∧ after < n
  /-- no gap: a row that is not served comes after all that are, and after the cut -/
  complete : ∀ n, live n → after < n →
    n ∈ page.items.map number ∨ page.truncated = true ∧ ∀ m ∈ page.items.map number, m < n
  progress : page.truncated = true → page.items ≠ []

/-- The cursor behind a page. -/
def Page.next (page : Page ι) (after : Nat) : Nat :=
  ((page.items.map number).getLast?).getD after

section reading
variable (page : Nat → Nat → Page ι)

/-- The cursor the `i`-th page is asked for with; `page i` serves a cursor at
the time of that page. -/
def cursor : Nat → Nat
  | 0 => 0
  | i + 1 => (page i (cursor i)).next number (cursor i)

/-- The page asked for in turn `i`. -/
def pageAt (i : Nat) : Page ι := page i (cursor number page i)

/-- All that the first `k` pages hold. -/
def readThrough (k : Nat) : List ι :=
  (List.range k).flatMap fun i => (pageAt number page i).items

theorem readThrough_succ (k : Nat) :
    readThrough number page (k + 1) = readThrough number page k ++ (pageAt number page k).items := by
  simp [readThrough, List.range_succ]

end reading

variable {number}

/-- A page's cursor is the greatest number on it, or the one it was asked with. -/
theorem Serves.next_cases {live : Nat → Prop} {after : Nat} {page : Page ι}
    (h : Serves number live after page) :
    (page.items = [] ∧ page.next number after = after) ∨
      page.next number after ∈ page.items.map number ∧
        ∀ m ∈ page.items.map number, m ≤ page.next number after := by
  rcases List.eq_nil_or_concat (page.items.map number) with hnil | ⟨front, last, hlast⟩
  · left
    exact ⟨List.map_eq_nil_iff.mp hnil, by simp [Page.next, hnil]⟩
  · right
    have hsorted := h.sorted
    rw [hlast, List.concat_eq_append] at hsorted ⊢
    have hnext : page.next number after = last := by
      simp [Page.next, hlast]
    rw [hnext]
    refine ⟨by simp, fun m hm => ?_⟩
    rcases List.mem_append.mp hm with hm | hm
    · exact ((List.pairwise_append.mp hsorted).2.2 m hm last (by simp)).le
    · rw [List.mem_singleton.mp hm]

theorem Serves.le_next {live : Nat → Prop} {after : Nat} {page : Page ι}
    (h : Serves number live after page) : after ≤ page.next number after := by
  rcases h.next_cases with ⟨-, hnext⟩ | ⟨hmem, -⟩
  · exact hnext.ge
  · exact (h.sound _ hmem).2.le

theorem Serves.lt_next {live : Nat → Prop} {after : Nat} {page : Page ι}
    (h : Serves number live after page) (hcut : page.truncated = true) :
    after < page.next number after := by
  rcases h.next_cases with ⟨hnil, -⟩ | ⟨hmem, -⟩
  · exact absurd hnil (h.progress hcut)
  · exact (h.sound _ hmem).2

/-- How a population moves from one page to the next. `top` is the highest
number used so far. -/
structure Moves (live live' : Nat → Prop) (top top' floor floor' : Nat) : Prop where
  top_le : top ≤ top'
  floor_le : floor ≤ floor'
  floor_top : floor' ≤ max floor top'
  kept : ∀ n, live n → live' n ∨ n ≤ floor'
  fresh : ∀ n, live' n → live n ∨ top < n

theorem Moves.refl (live : Nat → Prop) (top floor : Nat) : Moves live live top top floor floor :=
  ⟨le_rfl, le_rfl, le_max_left _ _, fun _ h => .inl h, fun _ h => .inl h⟩

theorem Moves.trans {live live' live'' : Nat → Prop} {top top' top'' floor floor' floor'' : Nat}
    (h : Moves live live' top top' floor floor')
    (h' : Moves live' live'' top' top'' floor' floor'') :
    Moves live live'' top top'' floor floor'' where
  top_le := h.top_le.trans h'.top_le
  floor_le := h.floor_le.trans h'.floor_le
  floor_top := by
    have h₁ := h.floor_top
    have h₂ := h'.floor_top
    have h₃ := h'.top_le
    omega
  kept := by
    intro n hn
    rcases h.kept n hn with hn | hn
    · exact h'.kept n hn
    · exact .inr (hn.trans h'.floor_le)
  fresh := by
    intro n hn
    rcases h'.fresh n hn with hn | hn
    · exact h.fresh n hn
    · exact .inr (h.top_le.trans_lt hn)

/-! ## A whole reading -/

section
variable {live : Nat → Nat → Prop} {top floor : Nat → Nat} {page : Nat → Nat → Page ι}
variable (hpage : ∀ i after, Serves number (live i) after (page i after))
variable (hmove : ∀ i, Moves (live i) (live (i + 1)) (top i) (top (i + 1)) (floor i) (floor (i + 1)))
variable (htop : ∀ i n, live i n → n ≤ top i)

include hmove in
theorem moves_le {i j : Nat} (hij : i ≤ j) :
    Moves (live i) (live j) (top i) (top j) (floor i) (floor j) := by
  induction hij with
  | refl => exact .refl _ _ _
  | step _ ih => exact ih.trans (hmove _)

include hpage in
theorem le_cursor_of_cut {k : Nat} (h : ∀ i < k, (pageAt number page i).truncated = true) :
    k ≤ cursor number page k := by
  induction k with
  | zero => exact Nat.zero_le _
  | succ k ih =>
    have hstep : cursor number page k < cursor number page (k + 1) :=
      (hpage k _).lt_next (h k (Nat.lt_succ_self k))
    have hle := ih fun i hi => h i (Nat.lt_succ_of_lt hi)
    omega

include hpage in
theorem mem_readThrough_le {k n : Nat} (h : n ∈ (readThrough number page k).map number) :
    n ≤ cursor number page k := by
  induction k with
  | zero => simp [readThrough] at h
  | succ k ih =>
    rw [readThrough_succ, List.map_append, List.mem_append] at h
    rcases h with h | h
    · exact (ih h).trans (hpage k _).le_next
    · rcases (hpage k (cursor number page k)).next_cases with ⟨hnil, -⟩ | ⟨-, hmax⟩
      · rw [pageAt, hnil] at h
        simp at h
      · exact hmax n h

include hpage in
/-- **No row twice**, and all in order. -/
theorem readThrough_sorted (k : Nat) :
    ((readThrough number page k).map number).Pairwise (· < ·) := by
  induction k with
  | zero => simp [readThrough]
  | succ k ih =>
    rw [readThrough_succ, List.map_append]
    refine List.pairwise_append.mpr ⟨ih, (hpage k _).sorted, fun m hm n hn => ?_⟩
    exact (mem_readThrough_le hpage hm).trans_lt ((hpage k _).sound n hn).2

include hpage in
theorem sound_readThrough {k : Nat} {x : ι} (h : x ∈ readThrough number page k) :
    ∃ i < k, x ∈ (pageAt number page i).items ∧ live i (number x) := by
  obtain ⟨i, hi, hx⟩ := List.mem_flatMap.mp h
  exact ⟨i, List.mem_range.mp hi, hx, ((hpage i _).sound _ (List.mem_map_of_mem hx)).1⟩

include hpage hmove htop in
theorem cursor_le_top (i : Nat) : cursor number page (i + 1) ≤ top i := by
  induction i with
  | zero =>
    rcases (hpage 0 (cursor number page 0)).next_cases with ⟨-, hnext⟩ | ⟨hmem, -⟩
    · exact hnext.le.trans (Nat.zero_le _)
    · exact htop 0 _ ((hpage 0 _).sound _ hmem).1
  | succ i ih =>
    rcases (hpage (i + 1) (cursor number page (i + 1))).next_cases with ⟨-, hnext⟩ | ⟨hmem, -⟩
    · exact hnext.le.trans (ih.trans (hmove i).top_le)
    · exact htop (i + 1) _ ((hpage (i + 1) _).sound _ hmem).1

include hpage hmove htop in
/-- A page is cut only when a row lies above it, so a reading has ended once it
took as many pages as numbers were used. -/
theorem not_cut_of_top_le {k : Nat} (hk : top k ≤ k) :
    ∃ i ≤ k, (pageAt number page i).truncated = false := by
  by_contra hnone
  have hcut : ∀ i < k + 1, (pageAt number page i).truncated = true := by
    intro i hi
    cases hi' : (pageAt number page i).truncated with
    | true => rfl
    | false => exact absurd ⟨i, Nat.lt_succ_iff.mp hi, hi'⟩ hnone
  have hlow := le_cursor_of_cut hpage hcut
  have hhigh := cursor_le_top hpage hmove htop k
  omega

include hpage hmove htop in
/-- A row that was there at some page and lies at or below the cursor of that
page has been served by an earlier one. -/
theorem mem_readThrough_of_le_cursor {i n : Nat} (hn : live i n) (hle : n ≤ cursor number page i)
    (hpos : 0 < n) : n ∈ (readThrough number page i).map number := by
  induction i with
  | zero => exact absurd hle (by simp [cursor]; omega)
  | succ i ih =>
    rw [readThrough_succ, List.map_append, List.mem_append]
    -- a row that came after the page is numbered above everything on it
    have hold : live i n := by
      rcases (hmove i).fresh n hn with hold | hnew
      · exact hold
      · have := cursor_le_top hpage hmove htop i
        omega
    by_cases hserved : n ≤ cursor number page i
    · exact .inl (ih hold hserved)
    · right
      rcases (hpage i (cursor number page i)).complete n hold (by omega) with hmem | ⟨-, habove⟩
      · exact hmem
      · rcases (hpage i (cursor number page i)).next_cases with ⟨-, hnext⟩ | ⟨hmem, -⟩
        · exact absurd (hle.trans_eq hnext) hserved
        · exact absurd (habove _ hmem) (not_lt.mpr hle)

include hpage hmove htop in
/-- **Nothing is lost but what was let go.** Where the page after `k` others was
not cut, a row that was there at any of these pages has been read, or it is
gone by the last one and at or below its floor. -/
theorem mem_readThrough_or {i k n : Nat} (hik : i ≤ k) (hn : live i n) (hpos : 0 < n)
    (hend : (pageAt number page k).truncated = false) :
    n ∈ (readThrough number page (k + 1)).map number ∨ ¬live k n ∧ n ≤ floor k := by
  by_cases hlast : live k n
  · left
    rw [readThrough_succ, List.map_append, List.mem_append]
    by_cases hserved : n ≤ cursor number page k
    · exact .inl (mem_readThrough_of_le_cursor hpage hmove htop hlast hserved hpos)
    · rcases (hpage k (cursor number page k)).complete n hlast (by omega) with hmem | ⟨hcut, -⟩
      · exact .inr hmem
      · rw [pageAt] at hend
        rw [hend] at hcut
        cases hcut
  · rcases (moves_le hmove hik).kept n hn with hkept | hfloor
    · exact absurd hkept hlast
    · exact .inr ⟨hlast, hfloor⟩

end

end Pages
