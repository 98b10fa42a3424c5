import Mathlib.Data.List.Basic

/-!
# Foundation — Feed

A growing log as its readers address it: entries at positions, the position at
which the entry in progress begins, and the end. A log grows at its end and is
retired from its front; a reader is a cursor, a position that it hands in and
gets back.

A read gives the entries that begin at or after the cursor (`visit`), and
leaves the cursor behind the last one it took, or where the log settles it.
`Follows` is what a reader holds on to whatever happens between its reads: what
it got, in order and each once, is all that was there to get between the
position it set out from and its cursor.
-/

/-- An item of a log, at the positions it occupies. -/
structure Entry (α : Type) where
  start : Nat
  after : Nat
  item : α

/-- The entries kept, where the one in progress begins, and the end. -/
structure Feed (α : Type) where
  kept : List (Entry α)
  tail : Nat
  eof : Nat

namespace Feed

variable {α : Type}

/-- The entries lie one behind the other, in front of the tail. -/
structure Ordered (past : List (Entry α)) (f : Feed α) : Prop where
  chain : (past ++ f.kept).Pairwise fun a b => a.after ≤ b.start
  wide : ∀ e ∈ past ++ f.kept, e.start < e.after
  closed : ∀ e ∈ past ++ f.kept, e.after ≤ f.tail
  tail_le : f.tail ≤ f.eof

/-- The entries that begin at or after a position. -/
def visit (f : Feed α) (c : Nat) : List (Entry α) := f.kept.filter fun e => c ≤ e.start

/-- Where a reader is left that has taken all there is: at the entry in
progress, or at the end when it stood behind that. -/
def settle (f : Feed α) (c : Nat) : Nat := if c ≤ f.tail then f.tail else f.eof

/-- The log grew: its new entries begin with the one that was in progress. -/
structure Grows (f g : Feed α) (new : List (Entry α)) : Prop where
  kept : g.kept = f.kept ++ new
  starts : ∀ e ∈ new, e.start = f.tail ∨ f.eof ≤ e.start
  eof : f.eof ≤ g.eof
  tail : g.tail = f.tail ∨ f.eof ≤ g.tail

/-- Entries at the front were retired, or all of them and the one in progress. -/
structure Retires (f g : Feed α) (gone : List (Entry α)) : Prop where
  kept : f.kept = gone ++ g.kept
  eof : g.eof = f.eof
  tail : g.tail = f.tail ∨ g.tail = f.eof

theorem Retires.take_eq {f g : Feed α} {gone : List (Entry α)} (h : Retires f g gone) :
    f.kept.take (f.kept.length - g.kept.length) = gone := by
  rw [h.kept, List.length_append, Nat.add_sub_cancel, List.take_left]

/-- A reader that set out from `origin`, when the log ended at `from`, and has
come to `c`: `got` is what it was given, of the entries there have been. -/
structure Follows (origin end₀ : Nat) (past : List (Entry α)) (f : Feed α) (c : Nat)
    (got : List (Entry α)) : Prop where
  once : got.Sublist (past ++ f.kept)
  behind : ∀ e ∈ got, min origin end₀ ≤ e.start ∧ e.after ≤ c
  all : ∀ e ∈ f.kept, origin ≤ e.start → e.start < c → e ∈ got
  tail : f.tail < c → f.tail < origin
  beyond : f.eof < c → c = origin
  low : min origin end₀ ≤ c
  end_le : end₀ ≤ f.eof

theorem Follows.start {past : List (Entry α)} {f : Feed α} (origin : Nat) :
    Follows origin f.eof past f origin [] where
  once := List.nil_sublist _
  behind := by simp
  all := fun e _ h h' => absurd h' (by omega)
  tail := id
  beyond := fun _ => rfl
  low := Nat.min_le_left _ _
  end_le := Nat.le_refl _

/-! ## Logs that change -/

theorem Ordered.grow {past new : List (Entry α)} {f g : Feed α} (h : Ordered past f)
    (hg : Grows f g new) (hself : Ordered [] g) : Ordered past g := by
  obtain ⟨hpast, -, hcross⟩ := List.pairwise_append.mp h.chain
  have htail : f.tail ≤ g.tail := by
    have := h.tail_le
    rcases hg.tail with ht | ht <;> omega
  have hleft : ∀ a ∈ past, a.after ≤ f.tail := fun a ha => h.closed a (by simp [ha])
  refine ⟨?_, ?_, ?_, hself.tail_le⟩
  · refine List.pairwise_append.mpr ⟨hpast, hself.chain, fun a ha b hb => ?_⟩
    rw [hg.kept, List.mem_append] at hb
    rcases hb with hb | hb
    · exact hcross a ha b hb
    · have h1 := hleft a ha
      have h2 := h.tail_le
      rcases hg.starts b hb with hs | hs <;> omega
  · intro e he
    rcases List.mem_append.mp he with he | he
    · exact h.wide e (by simp [he])
    · exact hself.wide e he
  · intro e he
    rcases List.mem_append.mp he with he | he
    · exact Nat.le_trans (hleft e he) htail
    · exact hself.closed e he

theorem Ordered.retire {past gone : List (Entry α)} {f g : Feed α} (h : Ordered past f)
    (hg : Retires f g gone) : Ordered (past ++ gone) g := by
  have hsame : past ++ gone ++ g.kept = past ++ f.kept := by rw [List.append_assoc, hg.kept]
  have htail := h.tail_le
  have hend := hg.eof
  refine ⟨hsame ▸ h.chain, hsame ▸ h.wide, fun e he => ?_, ?_⟩
  · have := h.closed e (hsame ▸ he)
    rcases hg.tail with ht | ht <;> omega
  · rcases hg.tail with ht | ht <;> omega

theorem Follows.grow {origin end₀ c : Nat} {past new got : List (Entry α)} {f g : Feed α}
    (h : Follows origin end₀ past f c got) (hg : Grows f g new) :
    Follows origin end₀ past g c got where
  once := by
    rw [hg.kept, ← List.append_assoc]
    exact h.once.trans (List.sublist_append_left _ _)
  behind := h.behind
  all := by
    intro e he horigin hc
    rw [hg.kept, List.mem_append] at he
    rcases he with he | he
    · exact h.all e he horigin hc
    · -- an entry that begins in front of the cursor was in progress already
      rcases hg.starts e he with hs | hs
      · have := h.tail (by omega)
        omega
      · have := h.beyond (by omega)
        omega
  tail := by
    intro hc
    rcases hg.tail with ht | ht
    · rw [ht] at hc ⊢
      exact h.tail hc
    · have := h.beyond (by omega)
      omega
  beyond := fun hc => h.beyond (Nat.lt_of_le_of_lt hg.eof hc)
  low := h.low
  end_le := Nat.le_trans h.end_le hg.eof

theorem Follows.retire {origin end₀ c : Nat} {past gone got : List (Entry α)} {f g : Feed α}
    (h : Follows origin end₀ past f c got) (hg : Retires f g gone) :
    Follows origin end₀ (past ++ gone) g c got where
  once := by
    rw [List.append_assoc, ← hg.kept]
    exact h.once
  behind := h.behind
  all := by
    intro e he
    exact h.all e (by rw [hg.kept]; exact List.mem_append_right _ he)
  tail := by
    intro hc
    rcases hg.tail with ht | ht
    · rw [ht] at hc ⊢
      exact h.tail hc
    · have := h.beyond (by omega)
      omega
  beyond := by
    rw [hg.eof]
    exact h.beyond
  low := h.low
  end_le := by
    rw [hg.eof]
    exact h.end_le

/-- A reader that stands in front of the log may be moved up to it. -/
theorem Follows.raise {origin end₀ c c' : Nat} {past got : List (Entry α)} {f : Feed α}
    (ho : Ordered past f) (h : Follows origin end₀ past f c got) (hle : c ≤ c')
    (hkept : ∀ e ∈ f.kept, c' ≤ e.start) (htail : c' ≤ f.tail) :
    Follows origin end₀ past f c' got where
  once := h.once
  behind := by
    intro e he
    have := h.behind e he
    omega
  all := by
    intro e he _ hlt
    have := hkept e he
    omega
  tail := by
    intro hlt
    omega
  beyond := by
    have := ho.tail_le
    intro hlt
    omega
  low := Nat.le_trans h.low hle
  end_le := h.end_le

/-! ## Reading -/

/-- A chain of entries is what begins before a position and what begins at or
after it. -/
theorem split_at {es : List (Entry α)} (hchain : es.Pairwise fun a b => a.after ≤ b.start)
    (hwide : ∀ e ∈ es, e.start < e.after) (c : Nat) :
    es.filter (fun e => e.start < c) ++ es.filter (fun e => c ≤ e.start) = es := by
  induction es with
  | nil => rfl
  | cons e es ih =>
    rw [List.pairwise_cons] at hchain
    have ih := ih hchain.2 fun e he => hwide e (by simp [he])
    by_cases hc : e.start < c
    · rw [List.filter_cons_of_pos (by simpa using hc), List.filter_cons_of_neg (by simpa using hc),
        List.cons_append, ih]
    · have hnone : es.filter (fun e => e.start < c) = [] := by
        rw [List.filter_eq_nil_iff]
        intro e' he'
        have h1 := hchain.1 e' he'
        have h2 := hwide e (by simp)
        simp only [decide_eq_true_eq]
        omega
      have hall : es.filter (fun e => c ≤ e.start) = es := by
        rw [hnone] at ih
        exact ih
      rw [List.filter_cons_of_neg (by simpa using hc), List.filter_cons_of_pos (by simpa using hc),
        hnone, hall]
      rfl

theorem Follows.once_visit {origin end₀ c : Nat} {past got part : List (Entry α)} {f : Feed α}
    (ho : Ordered past f) (h : Follows origin end₀ past f c got)
    (hpart : part.Sublist (f.visit c)) : (got ++ part).Sublist (past ++ f.kept) := by
  rw [← split_at ho.chain ho.wide c]
  apply List.Sublist.append
  · have hgot : got.filter (fun e => e.start < c) = got := by
      rw [List.filter_eq_self]
      intro e he
      have h1 := (h.behind e he).2
      have h2 := ho.wide e (h.once.subset he)
      simp only [decide_eq_true_eq]
      omega
    rw [← hgot]
    exact h.once.filter _
  · rw [List.filter_append]
    exact hpart.trans (List.sublist_append_right _ _)

theorem mem_visit {f : Feed α} {c : Nat} {e : Entry α} :
    e ∈ f.visit c ↔ e ∈ f.kept ∧ c ≤ e.start := by
  simp [visit]

/-- Behind an entry, the entries that followed it are still to be visited. -/
theorem visit_after {past rest : List (Entry α)} {e : Entry α} {c : Nat} {f : Feed α}
    (ho : Ordered past f) (h : f.visit c = e :: rest) : f.visit e.after = rest := by
  have hmem : ∀ x ∈ e :: rest, x ∈ f.kept ∧ c ≤ x.start := by
    intro x hx
    rw [← h] at hx
    exact mem_visit.mp hx
  have hchain : (e :: rest).Pairwise fun a b => a.after ≤ b.start := by
    rw [← h]
    exact ho.chain.sublist (List.filter_sublist.trans (List.sublist_append_right _ _))
  have he := hmem e (by simp)
  have hwide := ho.wide e (List.mem_append_right _ he.1)
  have hnarrow : f.visit e.after = (f.visit c).filter fun x => e.after ≤ x.start := by
    unfold visit
    rw [List.filter_filter]
    apply List.filter_congr
    intro x _
    by_cases hx : e.after ≤ x.start
    · simp only [hx, decide_true, Bool.true_and, true_eq_decide_iff]
      omega
    · simp [hx]
  rw [hnarrow, h, List.filter_cons_of_neg (by simp only [decide_eq_true_eq]; omega),
    List.filter_eq_self.mpr]
  intro x hx
  simpa using (List.pairwise_cons.mp hchain).1 x hx

/-- Taking an entry does not change where the reader is settled. -/
theorem settle_after {past rest : List (Entry α)} {e : Entry α} {c : Nat} {f : Feed α}
    (ho : Ordered past f) (h : f.visit c = e :: rest) : f.settle e.after = f.settle c := by
  have he : e ∈ f.visit c := by simp [h]
  obtain ⟨hkept, hc⟩ := mem_visit.mp he
  have hwide := ho.wide e (List.mem_append_right _ hkept)
  have hclosed := ho.closed e (List.mem_append_right _ hkept)
  unfold settle
  rw [if_pos hclosed, if_pos (by omega)]

/-- Where a reader is settled, nothing is left to visit. -/
theorem visit_settle {past : List (Entry α)} {f : Feed α} (ho : Ordered past f) (c : Nat) :
    f.visit (f.settle c) = [] := by
  unfold visit
  rw [List.filter_eq_nil_iff]
  intro e he
  have h1 := ho.wide e (List.mem_append_right _ he)
  have h2 := ho.closed e (List.mem_append_right _ he)
  have h3 := ho.tail_le
  have hsettle : f.tail ≤ f.settle c := by
    unfold settle
    split
    · exact Nat.le_refl _
    · exact h3
  simp only [decide_eq_true_eq]
  omega

/-- A read that stops behind an entry. -/
theorem Follows.take {origin end₀ c : Nat} {past got l r : List (Entry α)} {e : Entry α}
    {f : Feed α} (ho : Ordered past f) (h : Follows origin end₀ past f c got)
    (hvisit : f.visit c = l ++ e :: r) :
    Follows origin end₀ past f e.after (got ++ (l ++ [e])) := by
  have hmem : ∀ x ∈ l ++ e :: r, x ∈ f.kept ∧ c ≤ x.start := by
    intro x hx
    rw [← hvisit] at hx
    exact mem_visit.mp hx
  have hchain : (l ++ e :: r).Pairwise fun a b => a.after ≤ b.start := by
    rw [← hvisit]
    exact ho.chain.sublist (List.filter_sublist.trans (List.sublist_append_right _ _))
  have hkept : ∀ x ∈ f.kept, x ∈ past ++ f.kept := fun x hx => List.mem_append_right _ hx
  -- what is visited behind `e` begins where `e` ends, or later
  obtain ⟨-, her, hle⟩ := List.pairwise_append.mp hchain
  have he := hmem e (by simp)
  have hwide := ho.wide e (hkept e he.1)
  have hclosed := ho.closed e (hkept e he.1)
  refine ⟨?_, ?_, ?_, ?_, ?_, ?_, h.end_le⟩
  · apply h.once_visit ho
    rw [hvisit]
    exact List.Sublist.append (List.Sublist.refl l) (by simp)
  · intro x hx
    rcases List.mem_append.mp hx with hx | hx
    · have := h.behind x hx
      omega
    · have hlow := h.low
      rcases List.mem_append.mp hx with hx | hx
      · have h1 := hmem x (by simp [hx])
        have h2 := hle x hx e (by simp)
        omega
      · obtain rfl := List.mem_singleton.mp hx
        omega
  · intro x hx horigin hlt
    by_cases hc : x.start < c
    · exact List.mem_append_left _ (h.all x hx horigin hc)
    · have hin : x ∈ l ++ e :: r := by
        rw [← hvisit]
        exact mem_visit.mpr ⟨hx, by omega⟩
      rcases List.mem_append.mp hin with hin | hin
      · simp [hin]
      · rcases List.mem_cons.mp hin with rfl | hin
        · simp
        · have := (List.pairwise_cons.mp her).1 x hin
          omega
  · intro hlt
    omega
  · have := ho.tail_le
    intro hlt
    omega
  · have := h.low
    omega

/-- A read that takes all there is. -/
theorem Follows.take_all {origin end₀ c : Nat} {past got : List (Entry α)} {f : Feed α}
    (ho : Ordered past f) (h : Follows origin end₀ past f c got) :
    Follows origin end₀ past f (f.settle c) (got ++ f.visit c) := by
  have htail := ho.tail_le
  have hlow := h.low
  have hend := h.end_le
  have honce := h.once_visit ho (List.Sublist.refl _)
  have hstart : ∀ x ∈ f.kept, x.start < f.tail := by
    intro x hx
    have h1 := ho.wide x (List.mem_append_right _ hx)
    have h2 := ho.closed x (List.mem_append_right _ hx)
    omega
  unfold settle
  by_cases hc : c ≤ f.tail
  · rw [if_pos hc]
    refine ⟨honce, ?_, ?_, by omega, by omega, by omega, hend⟩
    · intro x hx
      rcases List.mem_append.mp hx with hx | hx
      · have := h.behind x hx
        omega
      · obtain ⟨hx, hcx⟩ := mem_visit.mp hx
        have := ho.closed x (List.mem_append_right _ hx)
        omega
    · intro x hx horigin hlt
      by_cases hxc : x.start < c
      · exact List.mem_append_left _ (h.all x hx horigin hxc)
      · exact List.mem_append_right _ (mem_visit.mpr ⟨hx, by omega⟩)
  · rw [if_neg hc]
    refine ⟨honce, ?_, ?_, fun _ => h.tail (by omega), by omega, by omega, hend⟩
    · intro x hx
      refine ⟨?_, Nat.le_trans (ho.closed x (honce.subset hx)) htail⟩
      rcases List.mem_append.mp hx with hx | hx
      · exact (h.behind x hx).1
      · have := (mem_visit.mp hx).2
        omega
    · intro x hx horigin _
      have := hstart x hx
      exact List.mem_append_left _ (h.all x hx horigin (by omega))

end Feed
