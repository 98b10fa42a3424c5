import AgentsRemember.Foundation.Feed
import Mathlib.Data.List.TakeWhile

/-!
# River — Lines

A log file is bytes, and its records are the lines that a newline ends. The
reader of a file begins at a byte offset: one that stands in the middle of a
record is moved behind that record, one beyond the end is taken back to it, and
a last line without newline is left where it is.

`feed` is the file as a log with positions, each shifted by the bytes reclaimed
in front of it, and `readLinesFrom_eq` says that a read is a visit to it.
-/

namespace AgentsRemember.River

/-- The bytes of a file. -/
abbrev Bytes := List UInt8

/-- The byte that ends a record. -/
def newline : UInt8 := 10

/-- The records that newlines end, from an offset at which `record` has been
read since the last of them, with where the record in progress begins and what
it holds. -/
def scan (start : Nat) (record : Bytes) : Bytes → List (Entry Bytes) × Nat × Bytes
  | [] => ([], start, record)
  | b :: bs =>
    if b = newline then
      let after := start + record.length + 1
      let (entries, tail) := scan after [] bs
      (⟨start, after, record⟩ :: entries, tail)
    else scan start (record ++ [b]) bs

/-- The file behind `base` bytes reclaimed, as a log with positions. -/
def feed (base : Nat) (bytes : Bytes) : Feed Bytes where
  kept := (scan base [] bytes).1
  tail := (scan base [] bytes).2.1
  eof := base + bytes.length

/-- How far reading one line gets: behind the next newline, or to the end. -/
def readline : Bytes → Nat
  | [] => 0
  | b :: bs => if b = newline then 1 else readline bs + 1

/-- Complete records with the offset behind each, and the end. -/
def readLinesFrom (bytes : Bytes) (start : Nat) : List (Bytes × Nat) × Nat :=
  let size := bytes.length
  let start := min start size
  let start :=
    if 0 < start ∧ bytes[start - 1]? ≠ some newline then start + readline (bytes.drop start)
    else start
  let (entries, tail, _) := scan start [] (bytes.drop start)
  (entries.map fun e => (e.item, e.after), tail)

/-! ## Scanning -/

theorem scan_append (start : Nat) (record a b : Bytes) :
    scan start record (a ++ b) =
      ((scan start record a).1 ++ (scan (scan start record a).2.1 (scan start record a).2.2 b).1,
        (scan (scan start record a).2.1 (scan start record a).2.2 b).2) := by
  induction a generalizing start record with
  | nil => rfl
  | cons x a ih =>
    by_cases hx : x = newline
    · simp [scan, hx, ih]
    · simp [scan, hx, ih]

theorem scan_newline (start : Nat) (record bytes : Bytes) :
    scan start record (newline :: bytes) =
      (⟨start, start + record.length + 1, record⟩ :: (scan (start + record.length + 1) [] bytes).1,
        (scan (start + record.length + 1) [] bytes).2) := rfl

/-- What scanning leaves: the record in progress, without a newline, begins
where the bytes behind the last newline do. -/
theorem scan_tail {start : Nat} {record : Bytes} (h : newline ∉ record) (bytes : Bytes) :
    newline ∉ (scan start record bytes).2.2 ∧
      (scan start record bytes).2.1 + (scan start record bytes).2.2.length =
        start + record.length + bytes.length ∧
      start ≤ (scan start record bytes).2.1 := by
  induction bytes generalizing start record with
  | nil => exact ⟨h, rfl, Nat.le_refl _⟩
  | cons b bs ih =>
    by_cases hb : b = newline
    · have hrest := @ih (start + record.length + 1) [] (by simp)
      simp only [scan, hb, if_true, List.length_nil, List.length_cons] at hrest ⊢
      exact ⟨hrest.1, by omega, by omega⟩
    · have hrest := @ih start (record ++ [b]) (by simp [h, Ne.symm hb])
      simp only [scan, hb, if_false, List.length_append, List.length_cons,
        List.length_nil] at hrest ⊢
      exact ⟨hrest.1, by omega, hrest.2.2⟩

theorem scan_no_newline {record bytes : Bytes} (h : newline ∉ bytes) (start : Nat) :
    scan start record bytes = ([], start, record ++ bytes) := by
  induction bytes generalizing record with
  | nil => simp [scan]
  | cons b bs ih =>
    simp only [List.mem_cons, not_or] at h
    rw [scan, if_neg (Ne.symm h.1), ih h.2]
    simp

/-- The entries lie between the start of the scan and the record in progress,
each one behind the other. -/
theorem scan_entries (start : Nat) (record bytes : Bytes) :
    (scan start record bytes).1.Pairwise (fun a b => a.after ≤ b.start) ∧
      ∀ e ∈ (scan start record bytes).1,
        start ≤ e.start ∧ e.start < e.after ∧ e.after ≤ (scan start record bytes).2.1 := by
  induction bytes generalizing start record with
  | nil => simp [scan]
  | cons b bs ih =>
    by_cases hb : b = newline
    · obtain ⟨hchain, hrest⟩ := ih (start + record.length + 1) []
      have htail := (@scan_tail (start + record.length + 1) [] (by simp) bs).2.2
      simp only [scan, hb, if_true]
      constructor
      · exact List.pairwise_cons.mpr ⟨fun e he => (hrest e he).1, hchain⟩
      · intro e he
        rcases List.mem_cons.mp he with rfl | he
        · exact ⟨Nat.le_refl _, by show start < start + record.length + 1; omega, htail⟩
        · have := hrest e he
          exact ⟨by omega, this.2⟩
    · simp only [scan, hb, if_false]
      exact ih start (record ++ [b])

/-- All entries of a continued scan but the first begin behind what was there. -/
theorem scan_starts (start : Nat) (record bytes : Bytes) :
    ∀ e ∈ (scan start record bytes).1, e.start = start ∨ start + record.length + 1 ≤ e.start := by
  induction bytes generalizing start record with
  | nil => simp [scan]
  | cons b bs ih =>
    by_cases hb : b = newline
    · simp only [scan, hb, if_true]
      intro e he
      rcases List.mem_cons.mp he with rfl | he
      · exact .inl rfl
      · exact .inr ((scan_entries _ _ _).2 e he).1
    · simp only [scan, hb, if_false]
      intro e he
      rcases ih start (record ++ [b]) e he with h | h
      · exact .inl h
      · right
        simp only [List.length_append, List.length_singleton] at h
        omega

/-- The record in progress is still the one there was, or begins behind it. -/
theorem scan_tail_starts (start : Nat) (record bytes : Bytes) :
    (scan start record bytes).2.1 = start ∨
      start + record.length + 1 ≤ (scan start record bytes).2.1 := by
  induction bytes generalizing start record with
  | nil => exact .inl rfl
  | cons b bs ih =>
    by_cases hb : b = newline
    · simp only [scan, hb, if_true]
      exact .inr (@scan_tail (start + record.length + 1) [] (by simp) bs).2.2
    · simp only [scan, hb, if_false]
      rcases ih start (record ++ [b]) with h | h
      · exact .inl h
      · right
        simp only [List.length_append, List.length_singleton] at h
        omega

/-- Scanning from further on shifts every position. -/
theorem scan_shift (base start : Nat) (record bytes : Bytes) :
    scan (base + start) record bytes =
      ((scan start record bytes).1.map fun e => ⟨base + e.start, base + e.after, e.item⟩,
        base + (scan start record bytes).2.1, (scan start record bytes).2.2) := by
  induction bytes generalizing start record with
  | nil => rfl
  | cons b bs ih =>
    by_cases hb : b = newline
    · have := ih (start + record.length + 1) []
      simp only [scan, hb, if_true, List.map_cons, Nat.add_assoc] at this ⊢
      rw [this]
    · simp only [scan, hb, if_false]
      exact ih start (record ++ [b])

theorem feed_ordered (base : Nat) (bytes : Bytes) : Feed.Ordered [] (feed base bytes) := by
  have hentries := scan_entries base [] bytes
  have htail := @scan_tail base [] (by simp) bytes
  simp only [List.length_nil] at htail
  refine ⟨hentries.1, fun e he => (hentries.2 e he).2.1,
    fun e he => (hentries.2 e he).2.2, ?_⟩
  · show (scan base [] bytes).2.1 ≤ base + bytes.length
    omega

/-- The entries that bytes appended to a file complete. -/
def grown (base : Nat) (bytes more : Bytes) : List (Entry Bytes) :=
  (scan (scan base [] bytes).2.1 (scan base [] bytes).2.2 more).1

/-- Appending to a file grows it as a log, whatever is appended. -/
theorem feed_grows (base : Nat) (bytes more : Bytes) :
    Feed.Grows (feed base bytes) (feed base (bytes ++ more)) (grown base bytes more) := by
  have htail := @scan_tail base [] (by simp) bytes
  simp only [List.length_nil] at htail
  constructor
  · simp only [feed, scan_append, grown]
  · intro e he
    rcases scan_starts _ _ _ e he with h | h
    · exact .inl h
    · right
      show base + bytes.length ≤ e.start
      omega
  · show base + bytes.length ≤ base + (bytes ++ more).length
    simp
  · simp only [feed, scan_append]
    rcases scan_tail_starts (scan base [] bytes).2.1 (scan base [] bytes).2.2 more with h | h
    · exact .inl h
    · right
      omega

/-! ## Reading from an offset -/

/-- A file cut at an offset: the entries in front begin before it, and the
rest of the file is scanned on. -/
theorem feed_cut (base : Nat) (bytes : Bytes) (p : Nat) (c : Nat) (hp : p ≤ bytes.length)
    (hc : base + p ≤ c) : (feed base bytes).visit c =
      (grown base (bytes.take p) (bytes.drop p)).filter fun e => c ≤ e.start := by
  have htail := @scan_tail base [] (by simp) (bytes.take p)
  have hfront : (scan base [] (bytes.take p)).1.filter (fun e => c ≤ e.start) = [] := by
    rw [List.filter_eq_nil_iff]
    intro e he
    have := (scan_entries base [] (bytes.take p)).2 e he
    simp only [List.length_nil, List.length_take, decide_eq_true_eq] at htail ⊢
    omega
  unfold Feed.visit feed
  conv_lhs => rw [← List.take_append_drop p bytes]
  rw [scan_append, List.filter_append, hfront]
  rfl

theorem feed_tail_cut (base : Nat) (bytes : Bytes) (p : Nat) : (feed base bytes).tail =
    (scan (scan base [] (bytes.take p)).2.1 (scan base [] (bytes.take p)).2.2
      (bytes.drop p)).2.1 := by
  unfold feed
  conv_lhs => rw [← List.take_append_drop p bytes]
  rw [scan_append]

theorem readline_cases (bytes : Bytes) :
    (newline ∉ bytes ∧ readline bytes = bytes.length) ∨
      ∃ a b, bytes = a ++ newline :: b ∧ newline ∉ a ∧ readline bytes = a.length + 1 := by
  induction bytes with
  | nil => exact .inl ⟨by simp, rfl⟩
  | cons x bytes ih =>
    by_cases hx : x = newline
    · exact .inr ⟨[], bytes, by simp [hx], by simp, by simp [readline, hx]⟩
    · rcases ih with ⟨hnone, hlen⟩ | ⟨a, b, rfl, ha, hlen⟩
      · exact .inl ⟨by simp [hnone, Ne.symm hx], by simp [readline, hx, hlen]⟩
      · exact .inr ⟨x :: a, b, rfl, by simp [ha, Ne.symm hx], by simp [readline, hx, hlen]⟩

/-- At an offset behind a newline, or at the start, no record is in progress. -/
theorem scan_take_boundary {bytes : Bytes} {p : Nat} (hp : p ≤ bytes.length)
    (h : ¬(0 < p ∧ bytes[p - 1]? ≠ some newline)) (base : Nat) :
    (scan base [] (bytes.take p)).2 = (base + p, []) := by
  cases p with
  | zero => rfl
  | succ p =>
    have hget : bytes[p]? = some newline := by simpa using h
    rw [List.take_add_one, hget]
    have htail := @scan_tail base [] (by simp) (bytes.take p)
    simp only [List.length_nil, List.length_take, Nat.min_eq_left (by omega : p ≤ bytes.length)]
      at htail
    simp only [Option.toList_some, scan_append, scan, if_true, Prod.mk.injEq, and_true]
    omega

/-- In the middle of a record, one is. -/
theorem scan_take_inside {bytes : Bytes} {p : Nat} (hp : p ≤ bytes.length)
    (h : 0 < p ∧ bytes[p - 1]? ≠ some newline) (base : Nat) :
    (scan base [] (bytes.take p)).2.1 < base + p := by
  obtain ⟨q, rfl⟩ := Nat.exists_eq_succ_of_ne_zero (by omega : p ≠ 0)
  obtain ⟨b, hget⟩ : ∃ b, bytes[q]? = some b := ⟨_, List.getElem?_eq_getElem (by omega)⟩
  have hb : b ≠ newline := fun hb => h.2 (by simp [hget, hb])
  have htail := @scan_tail base [] (by simp) (bytes.take q)
  simp only [List.length_nil, List.length_take, Nat.min_eq_left (by omega : q ≤ bytes.length)]
    at htail
  rw [Nat.succ_eq_add_one, List.take_add_one, hget]
  simp only [Option.toList_some, scan_append, scan, hb, if_false]
  omega

/-- A read from an offset visits the file as a log, and is left where that
settles. -/
theorem readLinesFrom_eq (bytes : Bytes) (c : Nat) : readLinesFrom bytes c =
    (((feed 0 bytes).visit c).map fun e => (e.item, e.after), (feed 0 bytes).settle c) := by
  have hp : min c bytes.length ≤ bytes.length := Nat.min_le_right _ _
  have htail := feed_tail_cut 0 bytes (min c bytes.length)
  rw [feed_cut 0 bytes (min c bytes.length) c hp (by omega)]
  unfold readLinesFrom grown Feed.settle
  dsimp only
  generalize hpdef : min c bytes.length = p at hp htail ⊢
  -- does the offset stand inside a record, or at the beginning of one?
  by_cases h : 0 < p ∧ bytes[p - 1]? ≠ some newline
  · have hinside := scan_take_inside hp h 0
    have hfront := @scan_tail 0 [] (by simp) (bytes.take p)
    simp only [List.length_nil, List.length_take, Nat.min_eq_left hp] at hfront
    rw [if_pos h]
    rcases readline_cases (bytes.drop p) with ⟨hnone, hlen⟩ | ⟨a, b, hab, ha, hlen⟩
    · -- the record goes on to the end of the file: nothing to read, and the end
      rw [scan_no_newline hnone] at htail ⊢
      dsimp only at htail ⊢
      have hsize : p + readline (bytes.drop p) = bytes.length := by
        rw [hlen, List.length_drop]
        omega
      rw [hsize, List.drop_length, if_neg (by omega)]
      simp [scan, feed]
    · -- the record ends further on: reading resumes behind it
      have hdrop : bytes.drop (p + readline (bytes.drop p)) = b := by
        rw [hlen, ← List.drop_drop, hab]
        simp
      have hlt : p < bytes.length := by
        have := congrArg List.length hab
        simp only [List.length_drop, List.length_append, List.length_cons] at this
        omega
      have hresume : (scan 0 [] (bytes.take p)).2.1 +
          ((scan 0 [] (bytes.take p)).2.2 ++ a).length + 1 = p + readline (bytes.drop p) := by
        rw [hlen, List.length_append]
        omega
      have hq : p < p + readline (bytes.drop p) := by omega
      rw [hdrop]
      generalize p + readline (bytes.drop p) = q at hresume hq ⊢
      rw [hab, scan_append, scan_no_newline ha, scan_newline, hresume] at htail ⊢
      dsimp only at htail ⊢
      have hrest := (scan_entries q [] b).2
      have hb := (@scan_tail q [] (by simp) b).2.2
      rw [List.nil_append, List.filter_cons_of_neg (by simp only [decide_eq_true_eq]; omega),
        List.filter_eq_self.mpr (fun e he => by
          have := hrest e he
          simp only [decide_eq_true_eq]
          omega), htail, if_pos (by omega)]
  · have hboundary := scan_take_boundary hp h 0
    simp only [Nat.zero_add] at hboundary
    rw [hboundary] at htail ⊢
    rw [if_neg h]
    have hstarts := (scan_entries p [] (bytes.drop p)).2
    have hlast := @scan_tail p [] (by simp) (bytes.drop p)
    simp only [List.length_nil, List.length_drop] at hlast
    rw [htail]
    by_cases hc : c ≤ bytes.length
    · obtain rfl : c = p := by omega
      rw [if_pos hlast.2.2, List.filter_eq_self.mpr (fun e he => by simp [(hstarts e he).1])]
    · -- beyond the end
      obtain rfl : p = bytes.length := by omega
      rw [List.drop_length, scan, if_neg hc]
      simp [feed]

end AgentsRemember.River
