import AgentsRemember.Citations.Extents

/-!
# Citations — Streams

Where the words of a file and of its comment blocks stand. An occurrence of a
quote in a stream of words lies in a stretch of whole lines, and the words of
that stretch hold the quote.
-/

namespace AgentsRemember.Citations

open Lines (isSpace)

/-! ## The word at an offset -/

/-- The text of some words of a file. -/
def texts (words : List SourceWord) : List (List Char) := words.map SourceWord.text

/-- Where the word behind these words begins in the collapsed text. -/
def widthOf (words : List SourceWord) : Nat := Words.width (texts words)

theorem widthOf_append (us vs : List SourceWord) :
    widthOf (us ++ vs) = widthOf us + widthOf vs := by
  simp [widthOf, texts, Words.width_append]

theorem widthOf_cons (word : SourceWord) (words : List SourceWord) :
    widthOf (word :: words) = word.text.length + 1 + widthOf words :=
  Words.width_cons _ _

theorem layOut_append (width : Nat) (us vs : List SourceWord) :
    layOut width (us ++ vs) = layOut width us ++ layOut (width + widthOf us) vs := by
  induction us generalizing width with
  | nil => rfl
  | cons word us ih =>
    rw [List.cons_append, layOut, layOut, ih, widthOf_cons, List.cons_append]
    congr 3
    omega

theorem length_layOut (width : Nat) (words : List SourceWord) :
    (layOut width words).length = words.length := by
  induction words generalizing width with
  | nil => rfl
  | cons word words ih => rw [layOut, List.length_cons, ih, List.length_cons]

theorem bounds_layOut {width : Nat} {words : List SourceWord} {mark : WordMark}
    (h : mark ∈ layOut width words) :
    width ≤ mark.collapsedStart ∧ mark.collapsedStart < width + widthOf words := by
  induction words generalizing width with
  | nil => cases h
  | cons word words ih =>
    rw [widthOf_cons]
    rcases List.mem_cons.mp h with rfl | h
    · exact ⟨Nat.le_refl _, by dsimp only; omega⟩
    · have hrest := ih h
      omega

theorem wordMarkAt_layOut {front : List SourceWord} {word : SourceWord} (back : List SourceWord)
    {offset : Nat} (hlow : widthOf front ≤ offset) (hhigh : offset < widthOf front + word.text.length) :
    wordMarkAt (layOut 0 (front ++ word :: back)) offset =
      some ⟨word, widthOf front, widthOf front + word.text.length⟩ := by
  have hmarks : layOut 0 (front ++ word :: back) = layOut 0 front ++
      ⟨word, widthOf front, widthOf front + word.text.length⟩ ::
        layOut (widthOf front + word.text.length + 1) back := by
    rw [layOut_append, Nat.zero_add, layOut]
  have hfront : (layOut 0 front).length = front.length := length_layOut 0 front
  rw [wordMarkAt, hmarks]
  generalize hall : layOut 0 front ++ (⟨word, widthOf front, widthOf front + word.text.length⟩ ::
    layOut (widthOf front + word.text.length + 1) back) = marks
  have hlength : front.length + 1 ≤ marks.length := by
    rw [← hall, List.length_append, List.length_cons, hfront]
    omega
  have hword : marks[front.length]? =
      some ⟨word, widthOf front, widthOf front + word.text.length⟩ := by
    rw [← hall, List.getElem?_append_right (by omega), hfront, Nat.sub_self]
    rfl
  -- the marks begin at or before the offset up to the word, and behind it from there on
  have hbisect : Words.bisect
      (fun i => ((marks[i]?).map fun mark => decide (mark.collapsedStart ≤ offset)).getD false)
      0 marks.length = front.length + 1 := by
    apply Words.bisect_eq (Nat.zero_le _) hlength
    intro i _ hi
    obtain ⟨mark, hmem⟩ : ∃ mark, marks[i]? = some mark := ⟨_, List.getElem?_eq_getElem hi⟩
    rw [hmem, Option.map_some, Option.getD_some, decide_eq_true_eq]
    rcases Nat.lt_trichotomy i front.length with hlt | heq | hgt
    · rw [← hall, List.getElem?_append_left (by omega)] at hmem
      have hbounds := bounds_layOut (List.mem_of_getElem? hmem)
      omega
    · subst heq
      rw [hword, Option.some.injEq] at hmem
      rw [← hmem]
      dsimp only
      omega
    · rw [← hall, List.getElem?_append_right (by omega),
        show i - (layOut 0 front).length = (i - front.length - 1) + 1 by omega,
        List.getElem?_cons_succ] at hmem
      have hbounds := bounds_layOut (List.mem_of_getElem? hmem)
      omega
  simp only [hbisect, hword, Option.filter_some, decide_eq_true_eq, if_pos hhigh]

/-! ## Occurrences of a quote -/

theorem exists_sourceWord {words : List SourceWord} {pos : Nat} {c : Char}
    (hc : (stream words).text[pos]? = some c) (hspace : isSpace c = false) :
    ∃ front word back, words = front ++ word :: back ∧ widthOf front ≤ pos ∧
      pos < widthOf front + word.text.length := by
  obtain ⟨fronts, w, backs, hwords, hlow, hhigh⟩ :=
    Words.exists_word hc (Words.ne_blank hspace)
  obtain ⟨front, rest, rfl, rfl, hrest⟩ := List.map_eq_append_iff.mp hwords
  obtain ⟨word, back, rfl, rfl, rfl⟩ := List.map_eq_cons_iff.mp hrest
  exact ⟨front, word, back, rfl, hlow, hhigh⟩

/-- An occurrence of a quote is a match from the word that it begins in to the
word that it ends in. -/
theorem exists_match {words : List SourceWord} {target : List Char} (htight : Words.Tight target)
    {offset : Nat} (h : offset ∈ Words.occurrences target (stream words).text) :
    ∃ found front first back front' last back',
      quoteMatchAt (stream words).marks offset (offset + target.length) = some found ∧
        found.start = first.line ∧ found.stop = last.line ∧
        words = front ++ first :: back ∧ words = front' ++ last :: back' ∧
        widthOf front ≤ offset ∧ offset < widthOf front + first.text.length ∧
        widthOf front' < offset + target.length ∧
        offset + target.length ≤ widthOf front' + last.text.length := by
  obtain ⟨-, rest, hrest⟩ := Words.mem_occurrences.mp h
  have hpos : 0 < target.length := List.length_pos_iff.mpr htight.ne_nil
  obtain ⟨⟨c, hc, hcspace⟩, d, hd, hdspace⟩ := htight
  have hat : ∀ i, i < target.length → (stream words).text[offset + i]? = target[i]? := by
    intro i hi
    rw [← List.getElem?_drop, ← hrest, List.getElem?_append_left hi]
  have hfirst : (stream words).text[offset]? = some c := by
    have h0 := hat 0 hpos
    rwa [Nat.add_zero, ← List.head?_eq_getElem?, hc] at h0
  have hlast : (stream words).text[offset + target.length - 1]? = some d := by
    have h1 := hat (target.length - 1) (by omega)
    rwa [← Nat.add_sub_assoc hpos, ← List.getLast?_eq_getElem?, hd] at h1
  obtain ⟨front, first, back, hwords, hlow, hwithin⟩ := exists_sourceWord hfirst hcspace
  obtain ⟨front', last, back', hwords', hlow', hwithin'⟩ := exists_sourceWord hlast hdspace
  have hfirstMark := wordMarkAt_layOut back hlow hwithin
  have hlastMark := wordMarkAt_layOut back' hlow' hwithin'
  rw [← hwords] at hfirstMark
  rw [← hwords'] at hlastMark
  have hmatch : ∃ found,
      quoteMatchAt (stream words).marks offset (offset + target.length) = some found ∧
        found.start = first.line ∧ found.stop = last.line :=
    ⟨_, by rw [quoteMatchAt, stream, hfirstMark, hlastMark]; rfl, rfl, rfl⟩
  obtain ⟨found, hfound, hstart, hstop⟩ := hmatch
  exact ⟨found, front, first, back, front', last, back', hfound, hstart, hstop, hwords, hwords',
    hlow, hwithin, by omega, by omega⟩

/-- What an occurrence takes of some words in the middle. -/
theorem prefix_of_middle {lower range upper : List (List Char)} {target : List Char} {offset : Nat}
    (h : target <+: (Words.unwords (lower ++ range ++ upper)).drop offset)
    (hlow : Words.width lower ≤ offset)
    (hhigh : offset + target.length < Words.width lower + Words.width range) :
    target <+: (Words.unwords range).drop (offset - Words.width lower) := by
  have hne : range ≠ [] := by
    rintro rfl
    simp only [Words.width, List.map_nil, List.sum_nil] at hhigh hlow
    omega
  have hlength := Words.length_unwords hne
  obtain ⟨tail, htail⟩ := Words.prefix_unwords range upper
  obtain ⟨k, rfl⟩ : ∃ k, offset = Words.width lower + k := ⟨offset - Words.width lower, by omega⟩
  rw [List.append_assoc, ← List.drop_drop, Words.drop_width lower (by simp [hne]), ← htail,
    List.drop_append_of_le_length (by omega)] at h
  rw [Nat.add_sub_cancel_left]
  refine List.prefix_of_prefix_length_le h (List.prefix_append _ _) ?_
  rw [List.length_drop]
  omega

/-! ## Words on lines -/

section numbered
variable {f : List Char × Nat → List SourceWord} {g : List Char → List (List Char)}
  (hline : ∀ e, ∀ word ∈ f e, word.line = e.2 + 1) (htext : ∀ e, texts (f e) = g e.1)

/-- Where the words of a line begin. -/
def widthBefore (g : List Char → List (List Char)) (lines : List (List Char)) (i : Nat) : Nat :=
  Words.width ((lines.take i).flatMap g)

theorem widthBefore_mono (g : List Char → List (List Char)) (lines : List (List Char)) {i j : Nat}
    (h : i ≤ j) : widthBefore g lines i ≤ widthBefore g lines j := by
  obtain ⟨k, rfl⟩ := Nat.exists_eq_add_of_le h
  rw [widthBefore, widthBefore, List.take_add, List.flatMap_append, Words.width_append]
  exact Nat.le_add_right _ _

include htext in
theorem texts_flatMap (lines : List (List Char)) (k : Nat) :
    texts ((lines.zipIdx k).flatMap f) = lines.flatMap g := by
  induction lines generalizing k with
  | nil => rfl
  | cons line lines ih =>
    rw [List.zipIdx_cons, List.flatMap_cons, List.flatMap_cons, ← ih, ← htext (line, k)]
    exact List.map_append

include hline htext in
/-- A word stands between the beginning of its line and that of the next one. -/
theorem line_of_word {lines : List (List Char)} {k : Nat} {front back : List SourceWord}
    {word : SourceWord} (h : (lines.zipIdx k).flatMap f = front ++ word :: back) :
    ∃ i, word.line = k + i + 1 ∧ i < lines.length ∧ widthBefore g lines i ≤ widthOf front ∧
      widthOf front + word.text.length < widthBefore g lines (i + 1) := by
  induction lines generalizing k front with
  | nil => simp at h
  | cons line lines ih =>
    have hwidth : widthOf (f (line, k)) = Words.width (g line) := by rw [widthOf, htext]
    have hnext : ∀ i, widthBefore g (line :: lines) (i + 1) =
        Words.width (g line) + widthBefore g lines i := by
      intro i
      rw [widthBefore, List.take_succ_cons, List.flatMap_cons, Words.width_append, widthBefore]
    rw [List.zipIdx_cons, List.flatMap_cons] at h
    rcases List.append_eq_append_iff.mp h with ⟨front', rfl, hrest⟩ | ⟨tail, hfirst, hrest⟩
    · obtain ⟨i, hi, hlt, hlow, hhigh⟩ := ih hrest
      refine ⟨i + 1, by omega, by simpa using hlt, ?_, ?_⟩
      · rw [hnext, widthOf_append, hwidth]
        omega
      · rw [hnext, widthOf_append, hwidth]
        omega
    · cases tail with
      | nil =>
        -- the word opens the rest of the lines
        rw [List.nil_append] at hrest
        rw [List.append_nil] at hfirst
        obtain ⟨i, hi, hlt, hlow, hhigh⟩ := @ih (k + 1) [] hrest.symm
        refine ⟨i + 1, by omega, by simpa using hlt, ?_, ?_⟩
        · rw [hnext, ← hfirst, hwidth]
          have hzero : widthOf [] = 0 := rfl
          omega
        · rw [hnext, ← hfirst, hwidth]
          have hzero : widthOf [] = 0 := rfl
          omega
      | cons word' tail =>
        obtain ⟨rfl, -⟩ := List.cons.inj hrest
        refine ⟨0, ?_, by simp, ?_, ?_⟩
        · exact hline (line, k) word (by rw [hfirst]; simp)
        · exact Nat.zero_le _
        · rw [hnext, ← hwidth, hfirst, widthOf_append, widthOf_cons]
          omega

include hline htext in
/-- An occurrence of a quote lies on a range of lines, and the words of the
range hold it. -/
theorem exists_range {lines : List (List Char)} {k : Nat} {target : List Char}
    (htight : Words.Tight target) {offset : Nat}
    (h : offset ∈ Words.occurrences target (stream ((lines.zipIdx k).flatMap f)).text) :
    ∃ found i j,
      quoteMatchAt (stream ((lines.zipIdx k).flatMap f)).marks offset (offset + target.length) =
          some found ∧
        found.start = k + i + 1 ∧ found.stop = k + j + 1 ∧ i ≤ j ∧ j < lines.length ∧
        widthBefore g lines i ≤ offset ∧ offset < widthBefore g lines (i + 1) ∧
        widthBefore g lines j < offset + target.length ∧
        offset + target.length < widthBefore g lines (j + 1) ∧
        target <+: (Words.unwords (((lines.drop i).take (j + 1 - i)).flatMap g)).drop
          (offset - widthBefore g lines i) := by
  obtain ⟨found, front, first, back, front', last, back', hfound, hstart, hstop, hwords, hwords',
    hlow, hwithin, hlow', hwithin'⟩ := exists_match htight h
  obtain ⟨i, hi, hilt, hibefore, hiafter⟩ := line_of_word hline htext hwords
  obtain ⟨j, hj, hjlt, hjbefore, hjafter⟩ := line_of_word hline htext hwords'
  have hij : i ≤ j := by
    by_contra hlt
    have hmono := widthBefore_mono g lines (show j + 1 ≤ i by omega)
    omega
  refine ⟨found, i, j, hfound, by omega, by omega, hij, hjlt, by omega, by omega, by omega,
    by omega, ?_⟩
  have hsplit : lines = lines.take i ++ (lines.drop i).take (j + 1 - i) ++ lines.drop (j + 1) := by
    have hdrop : lines.drop (j + 1) = (lines.drop i).drop (j + 1 - i) := by
      rw [List.drop_drop, Nat.add_sub_cancel' (by omega)]
    rw [hdrop, List.append_assoc, List.take_append_drop, List.take_append_drop]
  have hrange : widthBefore g lines (j + 1) = widthBefore g lines i +
      Words.width (((lines.drop i).take (j + 1 - i)).flatMap g) := by
    have htake : lines.take (j + 1) = lines.take i ++ (lines.drop i).take (j + 1 - i) := by
      conv_lhs => rw [show j + 1 = i + (j + 1 - i) by omega]
      exact List.take_add
    rw [widthBefore, htake, List.flatMap_append, Words.width_append, widthBefore]
  have hbegins := (Words.mem_occurrences.mp h).2
  have htexts : (stream ((lines.zipIdx k).flatMap f)).text =
      Words.unwords ((lines.take i).flatMap g ++ ((lines.drop i).take (j + 1 - i)).flatMap g ++
        (lines.drop (j + 1)).flatMap g) := by
    rw [← List.flatMap_append, ← List.flatMap_append, ← hsplit]
    exact congrArg Words.unwords (texts_flatMap htext lines k)
  rw [htexts] at hbegins
  exact prefix_of_middle hbegins (by rw [← widthBefore]; omega)
    (by rw [← widthBefore, ← hrange]; omega)

end numbered

end AgentsRemember.Citations
