import AgentsRemember.Foundation.Lines
import Mathlib

/-!
# Foundation — Words

The words of a text, and words laid end to end with one blank between two.
What is found in the text laid out is found at a word, and a text that begins
and ends inside words lies within the words between the two.
-/

namespace Words

open Lines (isSpace)

/-! ## Splitting -/

/-- One character in front of a text that was split already. -/
def glue (pos : Nat) (c : Char) (next : Option Char) (tokens : List (Nat × List Char)) :
    List (Nat × List Char) :=
  match next, tokens with
  | some d, (later, word) :: tokens =>
    if isSpace d then (pos, [c]) :: (later, word) :: tokens else (pos, c :: word) :: tokens
  | _, tokens => (pos, [c]) :: tokens

/-- The maximal runs without white space, each with the offset it begins at. -/
def tokensFrom (pos : Nat) : List Char → List (Nat × List Char)
  | [] => []
  | c :: rest =>
    if isSpace c then tokensFrom (pos + 1) rest
    else glue pos c rest.head? (tokensFrom (pos + 1) rest)

/-- The words. -/
def words (s : List Char) : List (List Char) := (tokensFrom 0 s).map Prod.snd

/-- Words with one blank between two. -/
def unwords (ws : List (List Char)) : List Char := [' '].intercalate ws

/-- White space collapsed. -/
def collapse (s : List Char) : List Char := unwords (words s)

/-- A word of its own: not empty, and without white space. -/
def Solid (word : List Char) : Prop := word ≠ [] ∧ ∀ c ∈ word, isSpace c = false

theorem tokensFrom_cons (pos : Nat) (c : Char) (rest : List Char) :
    tokensFrom pos (c :: rest) =
      if isSpace c then tokensFrom (pos + 1) rest
      else glue pos c rest.head? (tokensFrom (pos + 1) rest) := rfl

theorem map_tokensFrom (pos : Nat) (s : List Char) :
    (tokensFrom pos s).map Prod.snd = words s := by
  suffices ∀ p q, (tokensFrom p s).map Prod.snd = (tokensFrom q s).map Prod.snd from this pos 0
  induction s with
  | nil => intros; rfl
  | cons c s ih =>
    intro p q
    have hrest := ih (p + 1) (q + 1)
    by_cases hc : isSpace c = true
    · rw [tokensFrom_cons, tokensFrom_cons, if_pos hc, if_pos hc]
      exact hrest
    · rw [tokensFrom_cons, tokensFrom_cons, if_neg hc, if_neg hc]
      cases hp : tokensFrom (p + 1) s with
      | nil =>
        cases hq : tokensFrom (q + 1) s with
        | nil => cases s.head? <;> rfl
        | cons => simp [hp, hq] at hrest
      | cons t ts =>
        cases hq : tokensFrom (q + 1) s with
        | nil => simp [hp, hq] at hrest
        | cons u us =>
          rw [hp, hq, List.map_cons, List.map_cons, List.cons.injEq] at hrest
          cases s.head? with
          | none => simp [glue, hrest]
          | some d => by_cases hd : isSpace d = true <;> simp [glue, hd, hrest]

theorem words_space {c : Char} (h : isSpace c = true) (s : List Char) :
    words (c :: s) = words s := by
  rw [words, tokensFrom_cons, if_pos h, map_tokensFrom]

/-- The end of a word. -/
theorem words_last {c : Char} (h : isSpace c = false) {s : List Char}
    (hs : ∀ d, s.head? = some d → isSpace d = true) : words (c :: s) = [c] :: words s := by
  rw [words, tokensFrom_cons, if_neg (by simp [h]), ← map_tokensFrom 1 s]
  cases hhead : s.head? with
  | none => rfl
  | some d => cases tokensFrom (0 + 1) s <;> simp [glue, hs d hhead]

/-- A character in front of a word belongs to it. -/
theorem words_inside {c d : Char} (hc : isSpace c = false) (hd : isSpace d = false)
    (s : List Char) : ∃ w ws, words (d :: s) = w :: ws ∧ words (c :: d :: s) = (c :: w) :: ws := by
  have hne : tokensFrom 1 (d :: s) ≠ [] := by
    rw [tokensFrom_cons, if_neg (by simp [hd])]
    cases s.head? <;> cases tokensFrom (1 + 1) s <;> simp [glue]
    split <;> simp
  obtain ⟨t, ts, ht⟩ := List.exists_cons_of_ne_nil hne
  refine ⟨t.2, ts.map Prod.snd, ?_, ?_⟩
  · rw [← map_tokensFrom 1, ht]
    rfl
  · rw [words, tokensFrom_cons, if_neg (by simp [hc]), ht, List.head?_cons]
    simp [glue, hd]

theorem words_spaces {front : List Char} (h : ∀ c ∈ front, isSpace c = true) (s : List Char) :
    words (front ++ s) = words s := by
  induction front with
  | nil => rfl
  | cons c front ih =>
    rw [List.cons_append, words_space (h c List.mem_cons_self),
      ih fun d hd => h d (List.mem_cons_of_mem _ hd)]

/-- White space keeps the words on its two sides apart. -/
theorem words_append_space {c : Char} (h : isSpace c = true) (a b : List Char) :
    words (a ++ c :: b) = words a ++ words b := by
  induction a with
  | nil => exact words_space h b
  | cons d a ih =>
    by_cases hd : isSpace d = true
    · rw [List.cons_append, words_space hd, words_space hd, ih]
    · have hd : isSpace d = false := by simpa using hd
      cases a with
      | nil =>
        rw [List.singleton_append, words_last hd (by simpa using h), words_space h,
          words_last hd (by simp)]
        rfl
      | cons e a =>
        by_cases he : isSpace e = true
        · rw [List.cons_append, words_last hd (by simpa using he), ih,
            words_last hd (by simpa using he)]
          rfl
        · have he : isSpace e = false := by simpa using he
          obtain ⟨w, ws, hw, hdw⟩ := words_inside hd he (a ++ c :: b)
          obtain ⟨v, vs, hv, hdv⟩ := words_inside hd he a
          rw [List.cons_append, hv, hw, List.cons_append, List.cons.injEq] at ih
          rw [List.cons_append, List.cons_append, hdw, hdv, ih.1, ih.2]
          rfl

theorem words_intercalate {c : Char} (h : isSpace c = true) (lines : List (List Char)) :
    words ([c].intercalate lines) = lines.flatMap words := by
  induction lines with
  | nil => rfl
  | cons l lines ih =>
    cases lines with
    | nil => rw [List.intercalate_singleton, List.flatMap_singleton]
    | cons next lines =>
      rw [List.intercalate_cons_cons, List.append_assoc, List.singleton_append,
        words_append_space h, ih]
      rfl

theorem solid_of_mem_words {s word : List Char} (h : word ∈ words s) : Solid word := by
  induction s generalizing word with
  | nil => cases h
  | cons c s ih =>
    by_cases hc : isSpace c = true
    · rw [words_space hc] at h
      exact ih h
    · have hc : isSpace c = false := by simpa using hc
      have hlast : (∀ d, s.head? = some d → isSpace d = true) → Solid word := by
        intro hs
        rw [words_last hc hs, List.mem_cons] at h
        obtain rfl | h := h
        · exact ⟨by simp, by simpa using hc⟩
        · exact ih h
      cases s with
      | nil => exact hlast (by simp)
      | cons d s =>
        by_cases hd : isSpace d = true
        · exact hlast (by simpa using hd)
        · obtain ⟨w, ws, hw, hcw⟩ := words_inside hc (by simpa using hd) s
          rw [hcw, List.mem_cons] at h
          have hsolid : Solid w := ih (by rw [hw]; exact List.mem_cons_self)
          obtain rfl | h := h
          · refine ⟨by simp, ?_⟩
            intro e he
            obtain rfl | he := List.mem_cons.mp he
            · exact hc
            · exact hsolid.2 e he
          · exact ih (by rw [hw]; exact List.mem_cons_of_mem _ h)

/-! ## Laying out -/

theorem unwords_singleton (w : List Char) : unwords [w] = w := List.intercalate_singleton

theorem unwords_cons {ws : List (List Char)} (h : ws ≠ []) (w : List Char) :
    unwords (w :: ws) = w ++ ' ' :: unwords ws := by
  rw [unwords, List.intercalate_cons_of_ne_nil h]
  simp [unwords]

/-- Two lists of parts, put together with one separator between them. -/
theorem intercalate_append {α : Type} (c : α) {us vs : List (List α)} (hu : us ≠ [])
    (hv : vs ≠ []) : [c].intercalate (us ++ vs) = [c].intercalate us ++ c :: [c].intercalate vs := by
  induction us with
  | nil => exact absurd rfl hu
  | cons u us ih =>
    by_cases hus : us = []
    · rw [hus, List.singleton_append, List.intercalate_cons_of_ne_nil hv,
        List.intercalate_singleton, List.append_assoc, List.singleton_append]
    · rw [List.cons_append, List.intercalate_cons_of_ne_nil (by simp [hus]), ih hus,
        List.intercalate_cons_of_ne_nil hus]
      simp

theorem unwords_append {us vs : List (List Char)} (hu : us ≠ []) (hv : vs ≠ []) :
    unwords (us ++ vs) = unwords us ++ ' ' :: unwords vs := intercalate_append ' ' hu hv

theorem prefix_unwords (us vs : List (List Char)) : unwords us <+: unwords (us ++ vs) := by
  by_cases hu : us = []
  · rw [hu]
    exact List.nil_prefix
  by_cases hv : vs = []
  · rw [hv, List.append_nil]
  · rw [unwords_append hu hv]
    exact List.prefix_append _ _

theorem suffix_unwords (us vs : List (List Char)) : unwords vs <:+ unwords (us ++ vs) := by
  by_cases hu : us = []
  · rw [hu]
    exact List.suffix_rfl
  by_cases hv : vs = []
  · rw [hv]
    exact List.nil_suffix
  · rw [unwords_append hu hv]
    exact ⟨unwords us ++ [' '], by simp⟩

theorem infix_unwords {us vs : List (List Char)} (h : us <:+: vs) :
    unwords us <:+: unwords vs := by
  obtain ⟨front, back, rfl⟩ := h
  exact ((suffix_unwords front us).isInfix).trans (prefix_unwords (front ++ us) back).isInfix

/-- Where the word behind these words begins. -/
def width (ws : List (List Char)) : Nat := (ws.map fun w => w.length + 1).sum

theorem width_cons (w : List Char) (ws : List (List Char)) :
    width (w :: ws) = w.length + 1 + width ws := by
  simp [width]

theorem width_append (us vs : List (List Char)) : width (us ++ vs) = width us + width vs := by
  simp [width]

theorem length_unwords {ws : List (List Char)} (h : ws ≠ []) :
    (unwords ws).length + 1 = width ws := by
  induction ws with
  | nil => exact absurd rfl h
  | cons w ws ih =>
    cases ws with
    | nil => simp [unwords_singleton, width]
    | cons v ws =>
      rw [unwords_cons (by simp), width_cons, ← ih (by simp)]
      simp only [List.length_append, List.length_cons]
      omega

theorem drop_width (us : List (List Char)) {vs : List (List Char)} (h : vs ≠ []) :
    (unwords (us ++ vs)).drop (width us) = unwords vs := by
  by_cases hu : us = []
  · rw [hu]
    rfl
  · rw [unwords_append hu h, ← length_unwords hu, List.append_cons,
      List.drop_left' (by simp)]

/-- What stands at an offset that is no blank is a character of a word. -/
theorem exists_word {ws : List (List Char)} {pos : Nat} {c : Char}
    (hc : (unwords ws)[pos]? = some c) (hblank : c ≠ ' ') :
    ∃ front w back, ws = front ++ w :: back ∧ width front ≤ pos ∧ pos < width front + w.length := by
  induction ws generalizing pos with
  | nil => cases hc
  | cons w ws ih =>
    by_cases hw : pos < w.length
    · exact ⟨[], w, ws, rfl, Nat.zero_le _, by simpa [width] using hw⟩
    · have hne : ws ≠ [] := by
        rintro rfl
        rw [unwords_singleton, List.getElem?_eq_none (by omega)] at hc
        cases hc
      rw [unwords_cons hne, List.getElem?_append_right (by omega)] at hc
      obtain ⟨k, hk⟩ : ∃ k, pos - w.length = k := ⟨_, rfl⟩
      cases k with
      | zero =>
        rw [hk] at hc
        exact absurd (Option.some.inj hc).symm hblank
      | succ k =>
        rw [hk, List.getElem?_cons_succ] at hc
        obtain ⟨front, v, back, rfl, hfront, hv⟩ := ih hc
        refine ⟨w :: front, v, back, rfl, ?_, ?_⟩
        · rw [width_cons]
          omega
        · rw [width_cons]
          omega

/-- A text that begins and ends inside words. -/
def Tight (target : List Char) : Prop :=
  (∃ c, target.head? = some c ∧ isSpace c = false) ∧
    ∃ c, target.getLast? = some c ∧ isSpace c = false

theorem ne_blank {c : Char} (h : isSpace c = false) : c ≠ ' ' := by
  rintro rfl
  cases h

theorem Tight.ne_nil {target : List Char} (h : Tight target) : target ≠ [] := by
  rintro rfl
  obtain ⟨⟨c, hc, -⟩, -⟩ := h
  cases hc

/-- What is left of a text whose white space is collapsed. -/
theorem tight_collapse {s : List Char} (h : collapse s ≠ []) : Tight (collapse s) := by
  have hsolid : ∀ w ∈ words s, Solid w := fun _ hw => solid_of_mem_words hw
  rw [collapse] at h ⊢
  generalize words s = ws at h hsolid
  constructor
  · cases ws with
    | nil => exact absurd rfl h
    | cons w ws =>
      obtain ⟨hne, hspace⟩ := hsolid w List.mem_cons_self
      obtain ⟨c, w, rfl⟩ := List.exists_cons_of_ne_nil hne
      refine ⟨c, ?_, hspace c List.mem_cons_self⟩
      obtain ⟨tail, htail⟩ := prefix_unwords [c :: w] ws
      rw [List.singleton_append] at htail
      rw [← htail, unwords_singleton]
      rfl
  · obtain rfl | ⟨ws, w, rfl⟩ := ws.eq_nil_or_concat'
    · exact absurd rfl h
    · obtain ⟨hne, hspace⟩ := hsolid w (by simp)
      obtain ⟨c, hc⟩ : ∃ c, w.getLast? = some c := ⟨_, List.getLast?_eq_some_getLast hne⟩
      refine ⟨c, ?_, hspace c (List.mem_of_getLast? hc)⟩
      obtain ⟨front, hfront⟩ := suffix_unwords ws [w]
      rw [← hfront, unwords_singleton, List.getLast?_append, hc]
      rfl

/-! ## Finding -/

/-- The offsets at which a text that is not empty stands in another. -/
def occurrencesFrom (target : List Char) (pos : Nat) : List Char → List Nat
  | [] => []
  | c :: rest =>
    if target.isPrefixOf (c :: rest) then pos :: occurrencesFrom target (pos + 1) rest
    else occurrencesFrom target (pos + 1) rest

/-- The places of a text in another. -/
def occurrences (target s : List Char) : List Nat := occurrencesFrom target 0 s

theorem mem_occurrencesFrom {target s : List Char} {pos o : Nat} :
    o ∈ occurrencesFrom target pos s ↔
      pos ≤ o ∧ o - pos < s.length ∧ target <+: s.drop (o - pos) := by
  induction s generalizing pos with
  | nil => simp [occurrencesFrom]
  | cons c s ih =>
    have hstep : pos ≠ o → (pos ≤ o ∧ o - pos < (c :: s).length ∧ target <+: (c :: s).drop (o - pos) ↔
        pos + 1 ≤ o ∧ o - (pos + 1) < s.length ∧ target <+: s.drop (o - (pos + 1))) := by
      intro hne
      by_cases hle : pos + 1 ≤ o
      · obtain ⟨k, rfl⟩ : ∃ k, o = pos + 1 + k := ⟨o - (pos + 1), by omega⟩
        rw [show pos + 1 + k - pos = k + 1 by omega, show pos + 1 + k - (pos + 1) = k by omega,
          List.drop_succ_cons, List.length_cons]
        simp only [show pos ≤ pos + 1 + k by omega, show pos + 1 ≤ pos + 1 + k by omega, true_and,
          Nat.add_lt_add_iff_right]
      · exact ⟨fun h => absurd h.1 (by omega), fun h => absurd h.1 (by omega)⟩
    rw [occurrencesFrom]
    by_cases hbegins : target.isPrefixOf (c :: s) = true
    · rw [if_pos hbegins, List.mem_cons, ih]
      by_cases ho : pos = o
      · subst ho
        simp [List.isPrefixOf_iff_prefix.mp hbegins]
      · rw [hstep ho]
        simp [Ne.symm ho]
    · rw [if_neg hbegins, ih]
      by_cases ho : pos = o
      · subst ho
        simp only [Nat.sub_self, List.drop_zero]
        exact ⟨fun h => absurd h.1 (by omega),
          fun h => absurd (List.isPrefixOf_iff_prefix.mpr h.2.2) hbegins⟩
      · rw [hstep ho]

theorem mem_occurrences {target s : List Char} {o : Nat} :
    o ∈ occurrences target s ↔ o < s.length ∧ target <+: s.drop o := by
  rw [occurrences, mem_occurrencesFrom]
  simp

/-- What stands in a text is found there. -/
theorem exists_mem_occurrences {target s : List Char} (hne : target ≠ []) (h : target <:+: s) :
    ∃ o, o ∈ occurrences target s := by
  obtain ⟨front, back, rfl⟩ := h
  refine ⟨front.length, mem_occurrences.mpr ⟨?_, ?_⟩⟩
  · have hpos := List.length_pos_iff.mpr hne
    simp only [List.length_append]
    omega
  · rw [List.append_assoc, List.drop_left]
    exact List.prefix_append _ _

/-! ## Bisecting -/

/-- The first number from which on a test fails, of those between two bounds. -/
def bisect (below : Nat → Bool) (low high : Nat) : Nat :=
  if low < high then
    if below ((low + high) / 2) then bisect below ((low + high) / 2 + 1) high
    else bisect below low ((low + high) / 2)
  else low
termination_by high - low

theorem bisect_eq {below : Nat → Bool} {low high k : Nat} (hlow : low ≤ k) (hhigh : k ≤ high)
    (h : ∀ i, low ≤ i → i < high → (below i = true ↔ i < k)) : bisect below low high = k := by
  fun_induction bisect below low high with
  | case1 low high hlt hbelow ih =>
    have hk := (h _ (by omega) (by omega)).mp hbelow
    exact ih (by omega) hhigh fun i hi hih => h i (by omega) hih
  | case2 low high hlt hbelow ih =>
    have hk := mt (h _ (by omega) (by omega)).mpr hbelow
    exact ih hlow (by omega) fun i hi hih => h i hi (by omega)
  | case3 low high hlt => omega

end Words
