import AgentsRemember.Foundation.Lines

/-!
# Foundation — LineEnds

A text as its lines, each with the characters that end it. The lines alone are
what splitting leaves; with their ends they are the text. Lines that are written
again all end in a line feed, the last of them only when it is asked for.
-/

namespace Lines

/-- Put a character in front of the first line. -/
def consTerminated (c : Char) : List (List Char × List Char) → List (List Char × List Char)
  | [] => [([c], [])]
  | (line, ending) :: rest => (c :: line, ending) :: rest

/-- The lines of a string with their ends; only the last can be without one. -/
def splitEnds : List Char → List (List Char × List Char)
  | [] => []
  | '\r' :: '\n' :: rest => ([], ['\r', '\n']) :: splitEnds rest
  | c :: rest => if isBreak c then ([], [c]) :: splitEnds rest else consTerminated c (splitEnds rest)

/-- Lines with a line feed between two of them, and one behind the last when it is asked for. -/
def written (lines : List (List Char)) (trailing : Bool) : List Char :=
  ['\n'].intercalate lines ++ if trailing then ['\n'] else []

theorem splitEnds_crlf (rest : List Char) :
    splitEnds ('\r' :: '\n' :: rest) = ([], ['\r', '\n']) :: splitEnds rest := rfl

theorem splitEnds_other {c : Char} {rest : List Char}
    (hne : ∀ r, c = '\r' → rest = '\n' :: r → False) :
    splitEnds (c :: rest) =
      if isBreak c then ([], [c]) :: splitEnds rest else consTerminated c (splitEnds rest) :=
  splitEnds.eq_3 c rest hne

theorem splitEnds_cons {c : Char} (h : c ≠ '\r') (s : List Char) :
    splitEnds (c :: s) =
      if isBreak c then ([], [c]) :: splitEnds s else consTerminated c (splitEnds s) :=
  splitEnds_other fun _ he _ => h he

theorem map_fst_consTerminated (c : Char) (ls : List (List Char × List Char)) :
    (consTerminated c ls).map Prod.fst = consLine c (ls.map Prod.fst) := by
  cases ls <;> rfl

theorem map_fst_splitEnds (s : List Char) : (splitEnds s).map Prod.fst = splitlines s := by
  induction s using split_induction with
  | nil => rfl
  | crlf rest ih => rw [splitEnds_crlf, splitlines_crlf, List.map_cons, ih]
  | ending c rest hne hbreak ih =>
    rw [splitEnds_other hne, splitlines_other hne, if_pos hbreak, if_pos hbreak,
      List.map_cons, ih]
  | inside c rest hne hbreak ih =>
    rw [splitEnds_other hne, splitlines_other hne, if_neg hbreak, if_neg hbreak,
      map_fst_consTerminated, ih]

@[simp] theorem length_splitEnds (s : List Char) :
    (splitEnds s).length = (splitlines s).length := by
  rw [← map_fst_splitEnds, List.length_map]

/-- Lines with their ends are the text. -/
theorem flatMap_splitEnds (s : List Char) :
    (splitEnds s).flatMap (fun terminated => terminated.1 ++ terminated.2) = s := by
  induction s using split_induction with
  | nil => rfl
  | crlf rest ih => rw [splitEnds_crlf, List.flatMap_cons, ih]; rfl
  | ending c rest hne hbreak ih =>
    rw [splitEnds_other hne, if_pos hbreak, List.flatMap_cons, ih]
    rfl
  | inside c rest hne hbreak ih =>
    rw [splitEnds_other hne, if_neg hbreak]
    conv_rhs => rw [← ih]
    cases splitEnds rest with
    | nil => rfl
    | cons first ls => rfl

theorem nonempty_of_mem_splitEnds {s l e : List Char} (h : (l, e) ∈ splitEnds s) :
    l ++ e ≠ [] := by
  induction s using split_induction generalizing l with
  | nil => cases h
  | crlf rest ih =>
    rw [splitEnds_crlf, List.mem_cons] at h
    rcases h with h | h
    · cases h
      simp
    · exact ih h
  | ending c rest hne hbreak ih =>
    rw [splitEnds_other hne, if_pos hbreak, List.mem_cons] at h
    rcases h with h | h
    · cases h
      simp
    · exact ih h
  | inside c rest hne hbreak ih =>
    rw [splitEnds_other hne, if_neg hbreak] at h
    cases hrest : splitEnds rest with
    | nil =>
      rw [hrest, consTerminated, List.mem_singleton] at h
      cases h
      simp
    | cons first ls =>
      rw [hrest, consTerminated, List.mem_cons] at h
      rcases h with h | h
      · cases h
        simp
      · exact ih (hrest ▸ List.mem_cons_of_mem _ h)

/-- Only the last line can be without an end. -/
theorem eq_last_of_unterminated {s l : List Char} {i : Nat}
    (h : (splitEnds s)[i]? = some (l, [])) : i + 1 = (splitEnds s).length := by
  induction s using split_induction generalizing i l with
  | nil => simp [splitEnds] at h
  | crlf rest ih =>
    rw [splitEnds_crlf] at h ⊢
    cases i with
    | zero => simp at h
    | succ i => simpa using ih (by simpa using h)
  | ending c rest hne hbreak ih =>
    rw [splitEnds_other hne, if_pos hbreak] at h ⊢
    cases i with
    | zero => simp at h
    | succ i => simpa using ih (by simpa using h)
  | inside c rest hne hbreak ih =>
    rw [splitEnds_other hne, if_neg hbreak] at h ⊢
    cases hrest : splitEnds rest with
    | nil =>
      rw [hrest, consTerminated] at h
      cases i with
      | zero => rfl
      | succ i => simp at h
    | cons first ls =>
      obtain ⟨line, ending⟩ := first
      rw [hrest] at ih
      rw [hrest, consTerminated] at h
      show i + 1 = ls.length + 1
      cases i with
      | zero =>
        obtain ⟨-, rfl⟩ : c :: line = l ∧ ending = [] := by simpa using h
        exact ih (i := 0) (l := line) rfl
      | succ i => exact ih (i := i + 1) (by simpa using h)

/-- Where line feeds are the only boundaries, a line ends in one or in nothing. -/
theorem ending_of_feeds {s l e : List Char} (h : ∀ c ∈ s, isBreak c = true → c = '\n')
    (hmem : (l, e) ∈ splitEnds s) : e = [] ∨ e = ['\n'] := by
  induction s using split_induction generalizing l with
  | nil => cases hmem
  | crlf rest ih => exact absurd (h '\r' (by simp) (by decide)) (by decide)
  | ending c rest hne hbreak ih =>
    rw [splitEnds_other hne, if_pos hbreak, List.mem_cons] at hmem
    rcases hmem with hmem | hmem
    · cases hmem
      rw [h c (by simp) hbreak]
      exact .inr rfl
    · exact ih (fun d hd => h d (by simp [hd])) hmem
  | inside c rest hne hbreak ih =>
    have hrest : ∀ l', (l', e) ∈ splitEnds rest → e = [] ∨ e = ['\n'] :=
      fun _ => ih fun d hd => h d (by simp [hd])
    rw [splitEnds_other hne, if_neg hbreak] at hmem
    cases hsplit : splitEnds rest with
    | nil =>
      rw [hsplit, consTerminated, List.mem_singleton] at hmem
      cases hmem
      exact .inl rfl
    | cons first ls =>
      obtain ⟨line, ending⟩ := first
      rw [hsplit, consTerminated, List.mem_cons] at hmem
      rcases hmem with hmem | hmem
      · cases hmem
        exact hrest line (by simp [hsplit])
      · exact hrest l (by simp [hsplit, hmem])

theorem getLast?_splitEnds {s l e : List Char} (h : (splitEnds s).getLast? = some (l, e)) :
    s.getLast? = (l ++ e).getLast? := by
  obtain ⟨front, hfront⟩ := List.getLast?_eq_some_iff.mp h
  have hne : l ++ e ≠ [] := nonempty_of_mem_splitEnds (s := s) (by simp [hfront])
  conv_lhs => rw [← flatMap_splitEnds s, hfront, List.flatMap_append]
  rw [List.flatMap_singleton, List.getLast?_append_of_ne_nil _ hne]

theorem universalNewlines_ne_nil {s : List Char} (h : s ≠ []) : universalNewlines s ≠ [] := by
  cases s using newline_induction with
  | nil => exact absurd rfl h
  | crlf rest => simp [universalNewlines_crlf]
  | cr rest hne =>
    rw [universalNewlines_cr hne]
    exact List.cons_ne_nil _ _
  | other c rest hcr =>
    rw [universalNewlines_cons hcr]
    exact List.cons_ne_nil _ _

theorem getLast?_universalNewlines (s : List Char) :
    (universalNewlines s).getLast? = s.getLast?.map fun c => if c = '\r' then '\n' else c := by
  induction s using newline_induction with
  | nil => rfl
  | crlf rest ih =>
    rw [universalNewlines_crlf]
    by_cases hrest : rest = []
    · rw [hrest]
      rfl
    · rw [List.getLast?_cons_of_ne_nil (universalNewlines_ne_nil hrest), ih,
        List.getLast?_cons_of_ne_nil (List.cons_ne_nil _ _), List.getLast?_cons_of_ne_nil hrest]
  | cr rest hne ih =>
    rw [universalNewlines_cr hne]
    by_cases hrest : rest = []
    · rw [hrest]
      rfl
    · rw [List.getLast?_cons_of_ne_nil (universalNewlines_ne_nil hrest), ih,
        List.getLast?_cons_of_ne_nil hrest]
  | other c rest hcr ih =>
    rw [universalNewlines_cons hcr]
    by_cases hrest : rest = []
    · rw [hrest, show universalNewlines [] = [] from rfl, List.getLast?_singleton,
        Option.map_some, if_neg hcr]
    · rw [List.getLast?_cons_of_ne_nil (universalNewlines_ne_nil hrest), ih,
        List.getLast?_cons_of_ne_nil hrest]

/-! ## Lines that are written -/

/-- A last line that is written without its end is lost when it is empty. -/
def kept (lines : List (List Char)) (trailing : Bool) : List (List Char) :=
  if trailing = false ∧ lines.getLast? = some [] then lines.dropLast else lines

theorem written_true {lines : List (List Char)} (hne : lines ≠ []) :
    written lines true = join lines := by
  rw [written, if_pos rfl, ← intercalate_join]
  induction lines with
  | nil => exact absurd rfl hne
  | cons l lines ih =>
    cases lines with
    | nil => simp [List.intercalate_cons_cons]
    | cons next lines =>
      rw [List.cons_append, List.intercalate_cons_cons, List.append_assoc, List.append_assoc,
        ih (by simp), List.intercalate_cons_of_ne_nil (by simp), List.append_assoc]

theorem mem_intercalate {lines : List (List Char)} {c : Char}
    (h : c ∈ ['\n'].intercalate lines) : (∃ l ∈ lines, c ∈ l) ∨ c = '\n' := by
  induction lines with
  | nil => cases h
  | cons l lines ih =>
    cases lines with
    | nil =>
      rw [List.intercalate_singleton] at h
      exact .inl ⟨l, by simp, h⟩
    | cons next lines =>
      rw [List.intercalate_cons_cons, List.append_assoc, List.mem_append, List.mem_append,
        List.mem_singleton] at h
      rcases h with h | h | h
      · exact .inl ⟨l, by simp, h⟩
      · exact .inr h
      · rcases ih h with ⟨l', hl', hc⟩ | hc
        · exact .inl ⟨l', List.mem_cons_of_mem _ hl', hc⟩
        · exact .inr hc

theorem mem_written {lines : List (List Char)} {trailing : Bool} {c : Char}
    (h : c ∈ written lines trailing) : (∃ l ∈ lines, c ∈ l) ∨ c = '\n' := by
  rw [written, List.mem_append] at h
  rcases h with h | h
  · exact mem_intercalate h
  · cases trailing with
    | true => exact .inr (List.mem_singleton.mp h)
    | false => cases h

theorem splitlines_written {lines : List (List Char)} (hne : lines ≠ [])
    (h : ∀ l ∈ lines, ∀ c ∈ l, isBreak c = false) (trailing : Bool) :
    splitlines (written lines trailing) = kept lines trailing := by
  cases trailing with
  | true => rw [written_true hne, splitlines_join_lines h, kept, if_neg (by simp)]
  | false =>
    rw [written, if_neg (by simp), List.append_nil, splitlines_intercalate h, kept]
    simp

theorem splitEnds_line {l : List Char} (h : ∀ c ∈ l, isBreak c = false) (s : List Char) :
    splitEnds (l ++ '\n' :: s) = (l, ['\n']) :: splitEnds s := by
  induction l with
  | nil => rfl
  | cons c l ih =>
    have hc := h c (by simp)
    have hcr : c ≠ '\r' := by
      rintro rfl
      cases hc
    rw [List.cons_append, splitEnds_cons hcr, hc, ih fun d hd => h d (by simp [hd])]
    rfl

theorem splitEnds_last {l : List Char} (hne : l ≠ []) (h : ∀ c ∈ l, isBreak c = false) :
    splitEnds l = [(l, [])] := by
  induction l with
  | nil => exact absurd rfl hne
  | cons c l ih =>
    have hc := h c (by simp)
    have hcr : c ≠ '\r' := by
      rintro rfl
      cases hc
    rw [splitEnds_cons hcr, hc]
    cases l with
    | nil => rfl
    | cons d l =>
      rw [ih (by simp) fun e he => h e (List.mem_cons_of_mem _ he)]
      rfl

/-- Every line that is written ends in a line feed; the last may end in nothing. -/
theorem splitEnds_written_getElem? {lines : List (List Char)}
    (h : ∀ l ∈ lines, ∀ c ∈ l, isBreak c = false) {trailing : Bool}
    (hlast : trailing = false → lines.getLast? ≠ some []) {i : Nat} {l : List Char}
    (hl : lines[i]? = some l) :
    (splitEnds (written lines trailing))[i]? =
      some (l, if i + 1 = lines.length ∧ trailing = false then [] else ['\n']) := by
  induction lines generalizing i with
  | nil => simp at hl
  | cons first lines ih =>
    have hfirst : ∀ c ∈ first, isBreak c = false := h first (by simp)
    cases lines with
    | nil =>
      cases i with
      | zero =>
        obtain rfl : first = l := by simpa using hl
        cases trailing with
        | true =>
          rw [show written [first] true = first ++ ['\n'] by simp [written],
            splitEnds_line hfirst []]
          simp
        | false =>
          have hne : first ≠ [] := by
            intro hnil
            exact hlast rfl (by simp [hnil])
          rw [show written [first] false = first by simp [written], splitEnds_last hne hfirst]
          simp
      | succ i => simp at hl
    | cons next lines =>
      have hwritten : written (first :: next :: lines) trailing =
          first ++ '\n' :: written (next :: lines) trailing := by
        simp [written, List.intercalate_cons_cons]
      rw [hwritten, splitEnds_line hfirst]
      cases i with
      | zero =>
        obtain rfl : first = l := by simpa using hl
        simp
      | succ i =>
        rw [List.getElem?_cons_succ, ih (fun l hl => h l (List.mem_cons_of_mem _ hl)) _
          (by simpa using hl)]
        · simp
        · intro htrailing
          simpa using hlast htrailing

end Lines
