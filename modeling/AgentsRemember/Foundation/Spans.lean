import Mathlib.Data.List.Induction
import Mathlib.Data.List.Sort

/-!
# Foundation — Spans

Spans of numbers, fused where they overlap or abut. What is fused covers the
same numbers, every span lies in one range, and the ranges are told by the
numbers that they cover.
-/

namespace Spans

/-- The numbers from the first to the second. -/
abbrev Span := Nat × Nat

/-- One more span, behind the ranges found so far. -/
def mergeSpan (found : List Span) (span : Span) : List Span :=
  match found.getLast? with
  | some last =>
    if span.1 ≤ last.2 + 1 then found.dropLast ++ [(last.1, max last.2 span.2)]
    else found ++ [span]
  | none => [span]

/-- The order of pairs. -/
def Earlier (a b : Span) : Prop := a.1 < b.1 ∨ a.1 = b.1 ∧ a.2 ≤ b.2

instance (a b : Span) : Decidable (Earlier a b) := inferInstanceAs (Decidable (_ ∨ _))

instance : IsTrans Span Earlier where
  trans a b c hab hbc := by
    unfold Earlier at *
    omega

instance : Std.Total Earlier where
  total a b := by
    unfold Earlier
    omega

/-- The spans, fused. -/
def merged (spans : List Span) : List Span := (spans.insertionSort Earlier).foldl mergeSpan []

/-! ## What is fused -/

/-- The number lies in a range. -/
def Covers (ranges : List Span) (n : Nat) : Prop := ∃ range ∈ ranges, range.1 ≤ n ∧ n ≤ range.2

/-- The span lies in one range. -/
def Within (ranges : List Span) (span : Span) : Prop :=
  ∃ range ∈ ranges, range.1 ≤ span.1 ∧ span.2 ≤ range.2

/-- Ranges with a gap between any two of them. -/
structure Apart (ranges : List Span) : Prop where
  gaps : ranges.Pairwise fun a b => a.2 + 1 < b.1
  ordered : ∀ range ∈ ranges, range.1 ≤ range.2

/-- The ranges that some spans are fused to. -/
structure Fused (spans found : List Span) : Prop where
  apart : Apart found
  within : ∀ span ∈ spans, Within found span
  starts : ∀ range ∈ found, ∃ span ∈ spans, span.1 = range.1
  stops : ∀ range ∈ found, ∃ span ∈ spans, span.2 = range.2
  covered : ∀ n, Covers found n → Covers spans n

@[simp] theorem mergeSpan_nil (span : Span) : mergeSpan [] span = [span] := rfl

theorem mergeSpan_concat (found : List Span) (last span : Span) :
    mergeSpan (found ++ [last]) span =
      if span.1 ≤ last.2 + 1 then found ++ [(last.1, max last.2 span.2)]
      else found ++ [last] ++ [span] := by
  simp [mergeSpan]

theorem Within.mono {some more : List Span} {span : Span} (h : Within some span)
    (hsub : ∀ range ∈ some, Within more range) : Within more span := by
  obtain ⟨range, hrange, h1, h2⟩ := h
  obtain ⟨wide, hwide, h3, h4⟩ := hsub range hrange
  exact ⟨wide, hwide, by omega, by omega⟩

theorem within_of_mem {ranges : List Span} {range : Span} (h : range ∈ ranges) :
    Within ranges range :=
  ⟨range, h, Nat.le_refl _, Nat.le_refl _⟩

/-- What lies in a range is covered. -/
theorem Within.covers {ranges : List Span} {span : Span} (h : Within ranges span) {n : Nat}
    (hlow : span.1 ≤ n) (hhigh : n ≤ span.2) : Covers ranges n := by
  obtain ⟨range, hrange, h1, h2⟩ := h
  exact ⟨range, hrange, by omega, by omega⟩

theorem fused_nil : Fused [] [] :=
  ⟨⟨.nil, by simp⟩, by simp, by simp, by simp, fun _ h => h⟩

theorem forall_mem_concat {α : Type} {p : α → Prop} {xs : List α} {x : α} :
    (∀ y ∈ xs ++ [x], p y) ↔ (∀ y ∈ xs, p y) ∧ p x := by
  rw [List.forall_mem_append, List.forall_mem_singleton]

section concat
variable {spans found : List Span} {span : Span}

/-- A span behind a gap. -/
theorem Fused.push (h : Fused spans found) (hgap : ∀ range ∈ found, range.2 + 1 < span.1)
    (hspan : span.1 ≤ span.2) : Fused (spans ++ [span]) (found ++ [span]) := by
  have hmem : ∀ {p : Span → Prop}, (∃ before ∈ spans, p before) →
      ∃ before ∈ spans ++ [span], p before :=
    fun ⟨before, hbefore, hp⟩ => ⟨before, List.mem_append_left _ hbefore, hp⟩
  have hlast : span ∈ spans ++ [span] := by simp
  refine ⟨⟨?_, ?_⟩, ?_, ?_, ?_, ?_⟩
  · refine List.pairwise_append.mpr ⟨h.apart.gaps, List.pairwise_singleton _ _, ?_⟩
    intro a ha b hb
    rw [List.mem_singleton.mp hb]
    exact hgap a ha
  · exact forall_mem_concat.mpr ⟨h.apart.ordered, hspan⟩
  · refine forall_mem_concat.mpr ⟨fun before hbefore => ?_, within_of_mem (by simp)⟩
    exact (h.within before hbefore).mono fun range hrange =>
      within_of_mem (List.mem_append_left _ hrange)
  · exact forall_mem_concat.mpr ⟨fun range hrange => hmem (h.starts range hrange), span, hlast, rfl⟩
  · exact forall_mem_concat.mpr ⟨fun range hrange => hmem (h.stops range hrange), span, hlast, rfl⟩
  · rintro n ⟨range, hrange, hn⟩
    rcases List.mem_append.mp hrange with hrange | hrange
    · exact hmem (h.covered n ⟨range, hrange, hn⟩)
    · exact ⟨range, List.mem_append_right _ hrange, hn⟩

/-- A span that overlaps or abuts the last range. -/
theorem Fused.widen {last : Span} (h : Fused spans (found ++ [last]))
    (hbegins : last.1 ≤ span.1) (htouch : span.1 ≤ last.2 + 1) :
    Fused (spans ++ [span]) (found ++ [(last.1, max last.2 span.2)]) := by
  have hmem : ∀ {p : Span → Prop}, (∃ before ∈ spans, p before) →
      ∃ before ∈ spans ++ [span], p before :=
    fun ⟨before, hbefore, hp⟩ => ⟨before, List.mem_append_left _ hbefore, hp⟩
  have hlast : last ∈ found ++ [last] := by simp
  have hwide : (last.1, max last.2 span.2) ∈ found ++ [(last.1, max last.2 span.2)] := by simp
  have hgaps := List.pairwise_append.mp h.apart.gaps
  have hordered := forall_mem_concat.mp h.apart.ordered
  have hstarts := forall_mem_concat.mp h.starts
  have hstops := forall_mem_concat.mp h.stops
  refine ⟨⟨?_, ?_⟩, ?_, ?_, ?_, ?_⟩
  · refine List.pairwise_append.mpr ⟨hgaps.1, List.pairwise_singleton _ _, ?_⟩
    intro a ha b hb
    rw [List.mem_singleton.mp hb]
    exact hgaps.2.2 a ha last (List.mem_singleton_self last)
  · exact forall_mem_concat.mpr ⟨hordered.1, by dsimp only; omega⟩
  · refine forall_mem_concat.mpr ⟨fun before hbefore => ?_, _, hwide, hbegins, Nat.le_max_right _ _⟩
    refine (h.within before hbefore).mono (forall_mem_concat.mpr ⟨fun range hrange => ?_, ?_⟩)
    · exact within_of_mem (List.mem_append_left _ hrange)
    · exact ⟨_, hwide, Nat.le_refl _, Nat.le_max_left _ _⟩
  · exact forall_mem_concat.mpr ⟨fun range hrange => hmem (hstarts.1 range hrange), hmem hstarts.2⟩
  · refine forall_mem_concat.mpr ⟨fun range hrange => hmem (hstops.1 range hrange), ?_⟩
    rcases Nat.le_total last.2 span.2 with hle | hle
    · exact ⟨span, by simp, (Nat.max_eq_right hle).symm⟩
    · rw [Nat.max_eq_left hle]
      exact hmem hstops.2
  · rintro n ⟨range, hrange, hlow, hhigh⟩
    rcases List.mem_append.mp hrange with hrange | hrange
    · exact hmem (h.covered n ⟨range, List.mem_append_left _ hrange, hlow, hhigh⟩)
    · rw [List.mem_singleton.mp hrange] at hlow hhigh
      -- the wide range has no number that neither of the two had
      by_cases hn : n ≤ last.2
      · exact hmem (h.covered n ⟨last, hlast, hlow, hn⟩)
      · exact ⟨span, by simp, by omega, by dsimp only at hhigh; omega⟩

/-- One span that begins no earlier than the others. -/
theorem Fused.concat (h : Fused spans found) (hlater : ∀ before ∈ spans, before.1 ≤ span.1)
    (hspan : span.1 ≤ span.2) : Fused (spans ++ [span]) (mergeSpan found span) := by
  obtain rfl | ⟨init, last, rfl⟩ := found.eq_nil_or_concat'
  · exact h.push (by simp) hspan
  · obtain ⟨first, hfirst, hstart⟩ := h.starts last (by simp)
    have hbegins := hlater first hfirst
    rw [mergeSpan_concat]
    split
    · exact h.widen (by omega) ‹_›
    · refine h.push (forall_mem_concat.mpr ⟨fun range hrange => ?_, by omega⟩) hspan
      have hbefore := (List.pairwise_append.mp h.apart.gaps).2.2 range hrange last (by simp)
      have hlast := h.apart.ordered last (by simp)
      omega

end concat

theorem fused_foldl {spans : List Span} (hsorted : spans.Pairwise Earlier)
    (hordered : ∀ span ∈ spans, span.1 ≤ span.2) : Fused spans (spans.foldl mergeSpan []) := by
  induction spans using List.reverseRecOn with
  | nil => exact fused_nil
  | append_singleton spans span ih =>
    obtain ⟨hsorted, -, hlater⟩ := List.pairwise_append.mp hsorted
    obtain ⟨hordered, hspan⟩ := forall_mem_concat.mp hordered
    rw [List.foldl_append]
    refine (ih hsorted hordered).concat (fun before hbefore => ?_) hspan
    have hearlier : Earlier before span := hlater before hbefore span (List.mem_singleton_self span)
    unfold Earlier at hearlier
    omega

theorem fused_merged {spans : List Span} (hordered : ∀ span ∈ spans, span.1 ≤ span.2) :
    Fused spans (merged spans) := by
  have hmem : ∀ span, span ∈ spans.insertionSort Earlier ↔ span ∈ spans :=
    fun span => List.mem_insertionSort Earlier
  have hfused := fused_foldl (List.pairwise_insertionSort Earlier spans)
    fun span hspan => hordered span ((hmem span).mp hspan)
  refine ⟨hfused.apart, fun span hspan => hfused.within span ((hmem span).mpr hspan), ?_, ?_, ?_⟩
  · intro range hrange
    obtain ⟨span, hspan, heq⟩ := hfused.starts range hrange
    exact ⟨span, (hmem span).mp hspan, heq⟩
  · intro range hrange
    obtain ⟨span, hspan, heq⟩ := hfused.stops range hrange
    exact ⟨span, (hmem span).mp hspan, heq⟩
  · intro n hn
    obtain ⟨span, hspan, hn⟩ := hfused.covered n hn
    exact ⟨span, (hmem span).mp hspan, hn⟩

/-! ## Ranges are told by what they cover -/

theorem Apart.tail {range : Span} {ranges : List Span} (h : Apart (range :: ranges)) :
    Apart ranges :=
  ⟨(List.pairwise_cons.mp h.gaps).2, fun r hr => h.ordered r (List.mem_cons_of_mem _ hr)⟩

/-- The first range covers everything up to the gap behind it, and from its start on. -/
theorem Apart.covers_first {range : Span} {ranges : List Span} (h : Apart (range :: ranges))
    {n : Nat} (hn : Covers (range :: ranges) n) :
    range.1 ≤ n ∧ (n ≤ range.2 ∨ range.2 + 1 < n ∧ Covers ranges n) := by
  have hordered := h.ordered range List.mem_cons_self
  obtain ⟨r, hr, hlow, hhigh⟩ := hn
  rcases List.mem_cons.mp hr with rfl | hr
  · exact ⟨hlow, .inl hhigh⟩
  · have hgap := (List.pairwise_cons.mp h.gaps).1 r hr
    exact ⟨by omega, .inr ⟨by omega, r, hr, hlow, hhigh⟩⟩

/-- The head of one list ends where the head of the other does. -/
theorem Apart.stop_le {a b : Span} {as bs : List Span} (ha : Apart (a :: as))
    (hcovers : ∀ n, Covers (b :: bs) n → Covers (a :: as) n)
    (hstart : a.1 = b.1) : b.2 ≤ a.2 := by
  by_contra hlt
  have hordered := ha.ordered a List.mem_cons_self
  have hnext := ha.covers_first (hcovers (a.2 + 1) ⟨b, List.mem_cons_self, by omega, by omega⟩)
  omega

theorem Apart.unique {as bs : List Span} (ha : Apart as) (hb : Apart bs)
    (hcovers : ∀ n, Covers as n ↔ Covers bs n) : as = bs := by
  induction as generalizing bs with
  | nil =>
    cases bs with
    | nil => rfl
    | cons b bs =>
      obtain ⟨a, hmem, -⟩ := (hcovers b.1).mpr
        ⟨b, List.mem_cons_self, Nat.le_refl _, hb.ordered b List.mem_cons_self⟩
      cases hmem
  | cons a as ih =>
    have hafirst : Covers (a :: as) a.1 :=
      ⟨a, List.mem_cons_self, Nat.le_refl _, ha.ordered a List.mem_cons_self⟩
    cases bs with
    | nil =>
      obtain ⟨b, hmem, -⟩ := (hcovers a.1).mp hafirst
      cases hmem
    | cons b bs =>
      have hbfirst : Covers (b :: bs) b.1 :=
        ⟨b, List.mem_cons_self, Nat.le_refl _, hb.ordered b List.mem_cons_self⟩
      have hstart : a.1 = b.1 := Nat.le_antisymm
        (ha.covers_first ((hcovers b.1).mpr hbfirst)).1
        (hb.covers_first ((hcovers a.1).mp hafirst)).1
      have hstop : a.2 = b.2 := Nat.le_antisymm
        (hb.stop_le (fun n => (hcovers n).mp) hstart.symm)
        (ha.stop_le (fun n => (hcovers n).mpr) hstart)
      obtain rfl : a = b := Prod.ext hstart hstop
      have htail : ∀ {xs : List Span}, Apart (a :: xs) → ∀ n, Covers xs n ↔
          Covers (a :: xs) n ∧ a.2 < n := by
        intro xs hxs n
        constructor
        · rintro ⟨r, hr, hlow, hhigh⟩
          have hgap := (List.pairwise_cons.mp hxs.gaps).1 r hr
          exact ⟨⟨r, List.mem_cons_of_mem _ hr, hlow, hhigh⟩, by omega⟩
        · rintro ⟨hn, hlt⟩
          rcases (hxs.covers_first hn).2 with hle | ⟨-, hn⟩
          · omega
          · exact hn
      rw [ih ha.tail hb.tail fun n => by rw [htail ha, htail hb, hcovers]]

/-- More spans that lie in the ranges of some are fused to the same ranges. -/
theorem merged_eq {spans more : List Span} (hordered : ∀ span ∈ more, span.1 ≤ span.2)
    (hsub : ∀ span ∈ spans, span ∈ more) (hwithin : ∀ span ∈ more, Within (merged spans) span) :
    merged more = merged spans := by
  have hmore := fused_merged hordered
  have hspans := fused_merged fun span hspan => hordered span (hsub span hspan)
  refine hmore.apart.unique hspans.apart fun n => ⟨fun hn => ?_, fun hn => ?_⟩
  · obtain ⟨span, hspan, hlow, hhigh⟩ := hmore.covered n hn
    exact (hwithin span hspan).covers hlow hhigh
  · obtain ⟨span, hspan, hlow, hhigh⟩ := hspans.covered n hn
    exact (hmore.within span (hsub span hspan)).covers hlow hhigh

end Spans
