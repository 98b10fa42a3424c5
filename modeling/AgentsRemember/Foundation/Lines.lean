import Mathlib.Data.List.DropRight
import Mathlib.Data.List.Induction
import Mathlib.Data.List.TakeWhile

/-!
# Foundation — Lines

Text and its lines, as a language with Unicode strings has them: reading a
file in text mode turns each line end into a line feed (`universalNewlines`),
while splitting a string into lines takes every Unicode line boundary
(`splitlines`). A text written line by line, each line ended by a line feed,
is split into the lines written when no line has a boundary inside, and else
into more.
-/

namespace Lines

theorem lawfulBEq : LawfulBEq (List Char) := inferInstance

/-! ## Splitting -/

/-- The line boundaries of a string. -/
def breaks : List Char :=
  ['\n', '\r', '\x0b', '\x0c', '\x1c', '\x1d', '\x1e', '\u0085', '\u2028', '\u2029']

/-- A boundary of lines. -/
def isBreak (c : Char) : Bool := breaks.contains c

/-- Put a character in front of the first line. -/
def consLine (c : Char) : List (List Char) → List (List Char)
  | [] => [[c]]
  | l :: ls => (c :: l) :: ls

/-- The lines of a string, without their ends; a carriage return and a line
feed behind it are one end, and an end at the end of the string opens no
further line. -/
def splitlines : List Char → List (List Char)
  | [] => []
  | '\r' :: '\n' :: rest => [] :: splitlines rest
  | c :: rest => if isBreak c then [] :: splitlines rest else consLine c (splitlines rest)

/-- Reading a file in text mode. -/
def universalNewlines : List Char → List Char
  | [] => []
  | '\r' :: '\n' :: rest => '\n' :: universalNewlines rest
  | '\r' :: rest => '\n' :: universalNewlines rest
  | c :: rest => c :: universalNewlines rest

/-- The code points of the white space that stripping a string removes. -/
def spaces : List (Nat × Nat) :=
  [(0x09, 0x0d), (0x1c, 0x20), (0x85, 0x85), (0xa0, 0xa0), (0x1680, 0x1680),
    (0x2000, 0x200a), (0x2028, 0x2029), (0x202f, 0x202f), (0x205f, 0x205f),
    (0x3000, 0x3000)]

/-- White space. -/
def isSpace (c : Char) : Bool :=
  spaces.any fun r => decide (r.1 ≤ c.toNat) && decide (c.toNat ≤ r.2)

/-- Nothing is left of a blank line when it is stripped. -/
def blank (line : List Char) : Bool := line.all isSpace

/-- A text without the characters of a kind at its two ends. -/
def stripBy (p : Char → Bool) (s : List Char) : List Char := (s.dropWhile p).rdropWhile p

/-- Stripping white space. -/
def strip (s : List Char) : List Char := stripBy isSpace s

/-- Lines written one after the other, each with its line feed. -/
def join (lines : List (List Char)) : List Char := lines.flatMap (· ++ ['\n'])

/-! ## Line end by line end -/

/-- A carriage return and the line feed behind it are taken together. -/
theorem end_induction {motive : List Char → Prop} (nil : motive [])
    (crlf : ∀ rest, motive rest → motive ('\r' :: '\n' :: rest))
    (other : ∀ c rest, (∀ r, c = '\r' → rest = '\n' :: r → False) → motive rest →
      motive (c :: rest)) (s : List Char) : motive s := by
  induction s using List.twoStepInduction with
  | nil => exact nil
  | singleton c => exact other c [] (fun r _ hr => by cases hr) nil
  | cons_cons c d rest ih ihcons =>
    by_cases h : c = '\r' ∧ d = '\n'
    · obtain ⟨rfl, rfl⟩ := h
      exact crlf rest ih
    · refine other c (d :: rest) ?_ (ihcons d)
      intro r hc hr
      exact h ⟨hc, (List.cons.inj hr).1⟩

theorem split_induction {motive : List Char → Prop} (nil : motive [])
    (crlf : ∀ rest, motive rest → motive ('\r' :: '\n' :: rest))
    (ending : ∀ c rest, (∀ r, c = '\r' → rest = '\n' :: r → False) → isBreak c = true →
      motive rest → motive (c :: rest))
    (inside : ∀ c rest, (∀ r, c = '\r' → rest = '\n' :: r → False) → ¬isBreak c = true →
      motive rest → motive (c :: rest)) (s : List Char) : motive s := by
  induction s using end_induction with
  | nil => exact nil
  | crlf rest ih => exact crlf rest ih
  | other c rest hne ih =>
    by_cases hbreak : isBreak c = true
    · exact ending c rest hne hbreak ih
    · exact inside c rest hne hbreak ih

theorem newline_induction {motive : List Char → Prop} (nil : motive [])
    (crlf : ∀ rest, motive rest → motive ('\r' :: '\n' :: rest))
    (cr : ∀ rest, (∀ r, rest = '\n' :: r → False) → motive rest → motive ('\r' :: rest))
    (other : ∀ c rest, c ≠ '\r' → motive rest → motive (c :: rest)) (s : List Char) :
    motive s := by
  induction s using end_induction with
  | nil => exact nil
  | crlf rest ih => exact crlf rest ih
  | other c rest hne ih =>
    by_cases hcr : c = '\r'
    · subst hcr
      exact cr rest (fun r => hne r rfl) ih
    · exact other c rest hcr ih

theorem splitlines_crlf (rest : List Char) :
    splitlines ('\r' :: '\n' :: rest) = [] :: splitlines rest := rfl

theorem splitlines_other {c : Char} {rest : List Char}
    (hne : ∀ r, c = '\r' → rest = '\n' :: r → False) :
    splitlines (c :: rest) =
      if isBreak c then [] :: splitlines rest else consLine c (splitlines rest) :=
  splitlines.eq_3 c rest hne

theorem splitlines_cons {c : Char} (h : c ≠ '\r') (s : List Char) :
    splitlines (c :: s) =
      if isBreak c then [] :: splitlines s else consLine c (splitlines s) :=
  splitlines_other fun _ he _ => h he

theorem universalNewlines_crlf (rest : List Char) :
    universalNewlines ('\r' :: '\n' :: rest) = '\n' :: universalNewlines rest := rfl

theorem universalNewlines_cr {rest : List Char} (hne : ∀ r, rest = '\n' :: r → False) :
    universalNewlines ('\r' :: rest) = '\n' :: universalNewlines rest :=
  universalNewlines.eq_3 rest hne

theorem universalNewlines_cons {c : Char} (hcr : c ≠ '\r') (rest : List Char) :
    universalNewlines (c :: rest) = c :: universalNewlines rest :=
  universalNewlines.eq_4 c rest (fun _ he _ => hcr he) hcr

/-! ## Texts without carriage returns -/

theorem universalNewlines_of_no_cr {s : List Char} (h : '\r' ∉ s) :
    universalNewlines s = s := by
  induction s with
  | nil => rfl
  | cons c s ih =>
    simp only [List.mem_cons, not_or] at h
    rw [universalNewlines_cons (Ne.symm h.1), ih h.2]

theorem cr_not_mem_universalNewlines (s : List Char) : '\r' ∉ universalNewlines s := by
  induction s using newline_induction with
  | nil => exact List.not_mem_nil
  | crlf rest ih => simpa [universalNewlines_crlf] using ih
  | cr rest hne ih => simpa [universalNewlines_cr hne] using ih
  | other c rest hcr ih =>
    rw [universalNewlines_cons hcr, List.mem_cons, not_or]
    exact ⟨fun h => hcr h.symm, ih⟩

theorem splitlines_ne_nil {s : List Char} (h : s ≠ []) : splitlines s ≠ [] := by
  cases s with
  | nil => exact absurd rfl h
  | cons c s =>
    by_cases hcr : ∃ rest, c = '\r' ∧ s = '\n' :: rest
    · obtain ⟨rest, rfl, rfl⟩ := hcr
      simp [splitlines_crlf]
    · rw [splitlines_other fun rest hc hs => hcr ⟨rest, hc, hs⟩]
      split
      · simp
      · cases splitlines s <;> simp [consLine]

/-- A line feed ends a line, also behind a carriage return. -/
theorem splitlines_append_feed (a b : List Char) :
    splitlines (a ++ '\n' :: b) = splitlines (a ++ ['\n']) ++ splitlines b := by
  have hcons : ∀ {c : Char} {rest : List Char},
      (∀ r, c = '\r' → rest = '\n' :: r → False) → ¬(c = '\r' ∧ rest = []) → ∀ tail,
      splitlines (c :: (rest ++ '\n' :: tail)) =
        if isBreak c then [] :: splitlines (rest ++ '\n' :: tail)
        else consLine c (splitlines (rest ++ '\n' :: tail)) := by
    intro c rest hne hend tail
    apply splitlines_other
    intro r hc hr
    cases rest with
    | nil => exact hend ⟨hc, rfl⟩
    | cons d rest =>
      rw [List.cons_append, List.cons.injEq] at hr
      exact hne rest hc (by rw [hr.1])
  induction a using split_induction with
  | nil => rfl
  | crlf rest ih =>
    show splitlines ('\r' :: '\n' :: (rest ++ '\n' :: b)) = _
    rw [splitlines_crlf, ih]
    rfl
  | ending c rest hne hbreak ih =>
    by_cases hend : c = '\r' ∧ rest = []
    · obtain ⟨rfl, rfl⟩ := hend
      rfl
    · rw [List.cons_append, List.cons_append, hcons hne hend, hcons hne hend, if_pos hbreak,
        if_pos hbreak, ih]
      rfl
  | inside c rest hne hbreak ih =>
    have hend : ¬(c = '\r' ∧ rest = []) := by
      rintro ⟨rfl, -⟩
      exact hbreak (by decide)
    obtain ⟨l, ls, hl⟩ := List.exists_cons_of_ne_nil
      (splitlines_ne_nil (s := rest ++ ['\n']) (by simp))
    rw [List.cons_append, List.cons_append, hcons hne hend, hcons hne hend, if_neg hbreak,
      if_neg hbreak, ih, hl]
    rfl

theorem splitlines_join (lines : List (List Char)) :
    splitlines (join lines) = lines.flatMap (fun l => splitlines (l ++ ['\n'])) := by
  induction lines with
  | nil => rfl
  | cons l lines ih =>
    have hjoin : join (l :: lines) = l ++ '\n' :: join lines := by simp [join]
    rw [hjoin, splitlines_append_feed, ih]
    rfl

/-- Text mode moves no line boundary. -/
theorem splitlines_universalNewlines (s : List Char) :
    splitlines (universalNewlines s) = splitlines s := by
  induction s using newline_induction with
  | nil => rfl
  | crlf rest ih =>
    rw [universalNewlines_crlf, splitlines_cons (by decide), ih]
    rfl
  | cr rest hne ih =>
    rw [universalNewlines_cr hne, splitlines_cons (by decide), ih,
      splitlines_other fun r _ hr => hne r hr]
    rfl
  | other c rest hcr ih =>
    rw [universalNewlines_cons hcr, splitlines_cons hcr, splitlines_cons hcr, ih]

/-- Text mode reads on both sides of a character that ends no line. -/
theorem universalNewlines_append {c : Char} (hc : c ≠ '\r') (hn : c ≠ '\n') (a b : List Char) :
    universalNewlines (a ++ c :: b) = universalNewlines a ++ c :: universalNewlines b := by
  induction a using newline_induction with
  | nil => exact universalNewlines_cons hc b
  | crlf rest ih =>
    rw [List.cons_append, List.cons_append, universalNewlines_crlf, universalNewlines_crlf, ih]
    rfl
  | cr rest hne ih =>
    have hnot : ∀ r, rest ++ c :: b = '\n' :: r → False := by
      intro r hr
      cases rest with
      | nil => exact hn (List.cons.inj hr).1
      | cons d rest => exact hne rest (by rw [(List.cons.inj hr).1])
    rw [List.cons_append, universalNewlines_cr hnot, universalNewlines_cr hne, ih]
    rfl
  | other d rest hcr ih =>
    rw [List.cons_append, universalNewlines_cons hcr, universalNewlines_cons hcr, ih]
    rfl

theorem mem_universalNewlines {c : Char} (hc : c ≠ '\n') {s : List Char}
    (h : c ∈ universalNewlines s) : c ∈ s := by
  induction s using newline_induction with
  | nil => exact h
  | crlf rest ih =>
    rw [universalNewlines_crlf, List.mem_cons] at h
    exact List.mem_cons_of_mem _ (List.mem_cons_of_mem _ (ih (h.resolve_left hc)))
  | cr rest hne ih =>
    rw [universalNewlines_cr hne, List.mem_cons] at h
    exact List.mem_cons_of_mem _ (ih (h.resolve_left hc))
  | other d rest hcr ih =>
    rw [universalNewlines_cons hcr, List.mem_cons] at h
    rcases h with rfl | h
    · exact List.mem_cons_self
    · exact List.mem_cons_of_mem _ (ih h)

/-- The last line, without an end. -/
theorem splitlines_last {l : List Char} (hne : l ≠ []) (h : ∀ c ∈ l, isBreak c = false) :
    splitlines l = [l] := by
  induction l with
  | nil => exact absurd rfl hne
  | cons c l ih =>
    have hc := h c (by simp)
    have hcr : c ≠ '\r' := by
      rintro rfl
      cases hc
    rw [splitlines_cons hcr, hc]
    cases l with
    | nil => rfl
    | cons d l =>
      rw [ih (by simp) fun e he => h e (List.mem_cons_of_mem _ he)]
      rfl

/-- A line without a boundary is one line. -/
theorem splitlines_line {l : List Char} (h : ∀ c ∈ l, isBreak c = false) :
    splitlines (l ++ ['\n']) = [l] := by
  induction l with
  | nil => rfl
  | cons c l ih =>
    have hc := h c (by simp)
    have hcr : c ≠ '\r' := by
      rintro rfl
      cases hc
    rw [List.cons_append, splitlines_cons hcr, hc, ih (fun d hd => h d (by simp [hd]))]
    rfl

/-- Lines without boundaries are split as they were written. -/
theorem splitlines_join_lines {lines : List (List Char)}
    (h : ∀ l ∈ lines, ∀ c ∈ l, isBreak c = false) : splitlines (join lines) = lines := by
  rw [splitlines_join]
  induction lines with
  | nil => rfl
  | cons l lines ih =>
    rw [List.flatMap_cons, splitlines_line (h l List.mem_cons_self),
      ih fun l hl => h l (List.mem_cons_of_mem _ hl)]
    rfl

/-- Line feeds between lines, the last of them empty. -/
theorem intercalate_join (lines : List (List Char)) :
    ['\n'].intercalate (lines ++ [[]]) = join lines := by
  induction lines with
  | nil => rfl
  | cons l lines ih =>
    rw [List.cons_append, List.intercalate_cons_of_ne_nil (by simp), ih]
    simp [join]

/-- Lines put together are split again; only an empty last line is lost. -/
theorem splitlines_intercalate {lines : List (List Char)}
    (h : ∀ l ∈ lines, ∀ c ∈ l, isBreak c = false) :
    splitlines (['\n'].intercalate lines) =
      if lines.getLast? = some [] then lines.dropLast else lines := by
  induction lines with
  | nil => rfl
  | cons l lines ih =>
    cases lines with
    | nil =>
      rw [List.intercalate_singleton]
      by_cases hl : l = []
      · rw [hl]
        rfl
      · rw [splitlines_last hl (h l List.mem_cons_self), if_neg (by simpa using hl)]
    | cons next lines =>
      have hrest := ih fun l hl => h l (List.mem_cons_of_mem _ hl)
      rw [List.intercalate_cons_cons, List.append_assoc, List.singleton_append,
        splitlines_append_feed, splitlines_line (h l List.mem_cons_self), hrest,
        List.getLast?_cons_cons]
      split <;> rfl

/-- A line with a boundary is cut at the first. -/
theorem splitlines_broken {l : List Char} (hcr : '\r' ∉ l) {c : Char} (hc : c ∈ l)
    (hb : isBreak c = true) :
    ∃ p q ls, l = p ++ q ∧ q ≠ [] ∧ splitlines (l ++ ['\n']) = p :: ls := by
  induction l with
  | nil => cases hc
  | cons d l ih =>
    simp only [List.mem_cons, not_or] at hcr hc
    rw [List.cons_append, splitlines_cons (Ne.symm hcr.1)]
    by_cases hd : isBreak d = true
    · exact ⟨[], d :: l, _, rfl, by simp, by rw [if_pos hd]⟩
    · have hcl : c ∈ l := by
        rcases hc with rfl | hc
        · exact absurd hb hd
        · exact hc
      obtain ⟨p, q, ls, hl, hq, hs⟩ := ih hcr.2 hcl
      exact ⟨d :: p, q, ls, by rw [hl]; rfl, hq, by rw [if_neg hd, hs]; rfl⟩

/-- No line has a boundary inside. -/
theorem isBreak_of_mem_splitlines {s l : List Char} (hl : l ∈ splitlines s) {c : Char}
    (hc : c ∈ l) : isBreak c = false := by
  induction s using split_induction generalizing l c with
  | nil => cases hl
  | crlf rest ih =>
    rw [splitlines_crlf, List.mem_cons] at hl
    obtain rfl | hl := hl
    · cases hc
    · exact ih hl hc
  | ending d rest hne hbreak ih =>
    rw [splitlines_other hne, if_pos hbreak, List.mem_cons] at hl
    obtain rfl | hl := hl
    · cases hc
    · exact ih hl hc
  | inside d rest hne hbreak ih =>
    rw [splitlines_other hne, if_neg hbreak] at hl
    have hd : isBreak d = false := by simpa using hbreak
    cases hlines : splitlines rest with
    | nil =>
      rw [hlines, consLine, List.mem_singleton] at hl
      rw [hl, List.mem_singleton] at hc
      exact hc ▸ hd
    | cons first lines =>
      rw [hlines, consLine, List.mem_cons] at hl
      obtain rfl | hl := hl
      · obtain rfl | hc := List.mem_cons.mp hc
        · exact hd
        · exact ih (hlines ▸ List.mem_cons_self) hc
      · exact ih (hlines ▸ List.mem_cons_of_mem _ hl) hc

/-! ## Stripping -/

section stripping
variable {p : Char → Bool} {s : List Char}

theorem sublist_stripBy (s : List Char) : (stripBy p s).Sublist s :=
  (List.rdropWhile_prefix p _).sublist.trans (List.dropWhile_sublist p)

theorem stripBy_cons {c : Char} (h : p c = true) (s : List Char) :
    stripBy p (c :: s) = stripBy p s := by
  rw [stripBy, List.dropWhile_cons_of_pos h]
  rfl

theorem stripBy_concat {c : Char} (h : p c = true) (s : List Char) :
    stripBy p (s ++ [c]) = stripBy p s := by
  unfold stripBy
  induction s with
  | nil => simp [h]
  | cons d s ih =>
    by_cases hd : p d = true
    · rw [List.cons_append, List.dropWhile_cons_of_pos hd, List.dropWhile_cons_of_pos hd, ih]
    · rw [List.cons_append, List.dropWhile_cons_of_neg hd, List.dropWhile_cons_of_neg hd,
        ← List.cons_append, List.rdropWhile_concat_pos _ _ _ h]

/-- A text that begins and ends with other characters is left as it is. -/
theorem stripBy_of_ends (hhead : ∀ c, s.head? = some c → p c = false)
    (hlast : ∀ c, s.getLast? = some c → p c = false) : stripBy p s = s := by
  have hfront : s.dropWhile p = s := by
    cases s with
    | nil => rfl
    | cons c s => rw [List.dropWhile_cons_of_neg (by simp [hhead c rfl])]
  rw [stripBy, hfront, List.rdropWhile_eq_self_iff]
  intro hne
  rw [hlast _ (List.getLast?_eq_some_getLast hne)]
  exact Bool.false_ne_true

theorem head_stripBy {c : Char} (h : (stripBy p s).head? = some c) : p c = false := by
  obtain ⟨tail, htail⟩ := List.rdropWhile_prefix p (s.dropWhile p)
  have hhead : (s.dropWhile p).head? = some c := by
    rw [← htail, List.head?_append, show (s.dropWhile p).rdropWhile p = stripBy p s from rfl, h]
    rfl
  have hnot := List.head?_dropWhile_not p s
  rw [hhead] at hnot
  exact hnot

theorem last_stripBy {c : Char} (h : (stripBy p s).getLast? = some c) : p c = false := by
  have hne : (s.dropWhile p).rdropWhile p ≠ [] := by
    intro hnil
    rw [stripBy, hnil] at h
    cases h
  have hlast := List.rdropWhile_last_not p (s.dropWhile p) hne
  have hc : ((s.dropWhile p).rdropWhile p).getLast hne = c := by
    rw [stripBy, List.getLast?_eq_some_getLast hne] at h
    exact Option.some.inj h
  rw [hc] at hlast
  exact Bool.eq_false_iff.mpr hlast

theorem stripBy_stripBy (s : List Char) : stripBy p (stripBy p s) = stripBy p s :=
  stripBy_of_ends (fun _ => head_stripBy) fun _ => last_stripBy

theorem strip_strip (s : List Char) : strip (strip s) = strip s := stripBy_stripBy s

/-- A text put between two characters of the kind. -/
theorem stripBy_between {c d : Char} (hc : p c = true) (hd : p d = true) (s : List Char) :
    stripBy p (c :: (s ++ [d])) = stripBy p s := by
  rw [stripBy_cons hc, stripBy_concat hd]

end stripping

end Lines
