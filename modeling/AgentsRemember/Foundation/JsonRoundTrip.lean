import AgentsRemember.Foundation.Json
import Mathlib.Data.List.TakeWhile

/-!
# Foundation — JsonRoundTrip

What is written is read back: strings character by character, then values by
induction on the value. And reading on is stable: a value read from a text is
read from any longer text, unless it is a number that the longer text goes on
with (`Closed`). Together they say that a proper prefix of the text of an
object is no document.
-/

namespace Json

/-! ## White space -/

@[simp] theorem skipWs_nil : skipWs [] = [] := rfl

theorem skipWs_cons_of_not {c : Char} (h : isWs c = false) (s : List Char) :
    skipWs (c :: s) = c :: s := by
  simp [skipWs, h]

theorem skipWs_append_cons {s : List Char} {c : Char} {t : List Char}
    (h : skipWs s = c :: t) (x : List Char) : skipWs (s ++ x) = c :: (t ++ x) := by
  induction s with
  | nil => cases h
  | cons d s ih =>
    by_cases hd : isWs d = true
    · simp only [skipWs, List.dropWhile_cons, hd, if_true, List.cons_append] at h ⊢
      exact ih h
    · simp only [skipWs, List.dropWhile_cons, hd, List.cons_append] at h ⊢
      cases h
      rfl

/-! ## Strings -/

theorem hexValue_hexDigit : ∀ n < 16, hexValue (hexDigit n) = some n := by decide

theorem hex4_hexDigits {a b c d : Nat} (ha : a < 16) (hb : b < 16) (hc : c < 16)
    (hd : d < 16) (rest : List Char) :
    hex4 (hexDigit a :: hexDigit b :: hexDigit c :: hexDigit d :: rest)
      = some (((a * 16 + b) * 16 + c) * 16 + d, rest) := by
  simp [hex4, hexValue_hexDigit, ha, hb, hc, hd]

theorem unicodeEscape_control {n : Nat} (h : n < 0x20) (rest : List Char) :
    unicodeEscape ('0' :: '0' :: hexDigit (n / 16) :: hexDigit (n % 16) :: rest)
      = some (Char.ofNat n, rest) := by
  have hq : hex4 ('0' :: '0' :: hexDigit (n / 16) :: hexDigit (n % 16) :: rest)
      = some (n, rest) := by
    have := hex4_hexDigits (a := 0) (b := 0) (c := n / 16) (d := n % 16)
      (by omega) (by omega) (by omega) (by omega) rest
    have hn : ((0 * 16 + 0) * 16 + n / 16) * 16 + n % 16 = n := by omega
    rw [hn] at this
    exact this
  simp only [unicodeEscape, hq, Option.bind_some]
  rw [if_neg (by omega : ¬(0xD800 ≤ n ∧ n < 0xDC00)),
    if_neg (by omega : ¬(0xDC00 ≤ n ∧ n < 0xE000))]

theorem readChar_escapeChar (c : Char) (rest : List Char) :
    readChar (escapeChar c ++ rest) = some (c, rest) := by
  unfold escapeChar
  split_ifs with h₁ h₂ h₃ h₄ h₅ h₆ h₇ h₈
  · subst h₁; rfl
  · subst h₂; rfl
  · subst h₃; rfl
  · subst h₄; rfl
  · subst h₅; rfl
  · subst h₆; rfl
  · subst h₇; rfl
  · have := unicodeEscape_control h₈ rest
    rw [Char.ofNat_toNat] at this
    exact this
  · rw [List.singleton_append]
    unfold readChar
    split
    · contradiction
    · rename_i heq; cases heq; contradiction
    · rename_i heq; cases heq; contradiction
    · rename_i heq
      cases heq
      rw [if_neg h₈]

/-- The text of a character is never the closing quote. -/
theorem escapeChar_ne_quote (c : Char) :
    ∃ d t, escapeChar c = d :: t ∧ d ≠ '"' := by
  unfold escapeChar
  split_ifs with h₁
  all_goals first
    | exact ⟨_, _, rfl, by decide⟩
    | exact ⟨_, _, rfl, h₁⟩

/-- Escapes the reader undoes: none of them opens with the closing quote, and
each is read as the character it stands for. -/
structure Undone (escape : Char → List Char) : Prop where
  ne_quote : ∀ c, ∃ d t, escape c = d :: t ∧ d ≠ '"'
  readChar : ∀ c rest, readChar (escape c ++ rest) = some (c, rest)

theorem undone_escapeChar : Undone escapeChar := ⟨escapeChar_ne_quote, readChar_escapeChar⟩

section strings
variable {escape : Char → List Char} (hescape : Undone escape)
include hescape

theorem parseChars_escape (fuel : Nat) (c : Char) (rest : List Char) :
    parseChars (fuel + 1) (escape c ++ rest)
      = (parseChars fuel rest).map fun (cs, rest) => (c :: cs, rest) := by
  obtain ⟨d, t, he, hd⟩ := hescape.ne_quote c
  have hread := hescape.readChar c rest
  rw [he, List.cons_append] at hread ⊢
  rw [parseChars.eq_3 _ _ (by intro r h; cases h; contradiction), hread, Option.bind_some]

/-- A written string is read up to its closing quote. -/
theorem parseChars_quoted (cs : List Char) {fuel : Nat} (hf : cs.length < fuel)
    (rest : List Char) :
    parseChars fuel (cs.flatMap escape ++ '"' :: rest) = some (cs, rest) := by
  induction cs generalizing fuel with
  | nil =>
    obtain ⟨fuel, rfl⟩ : ∃ f, fuel = f + 1 := ⟨fuel - 1, by simp at hf; omega⟩
    rfl
  | cons c cs ih =>
    obtain ⟨fuel, rfl⟩ : ∃ f, fuel = f + 1 := ⟨fuel - 1, by simp at hf; omega⟩
    rw [List.flatMap_cons, List.append_assoc, parseChars_escape hescape,
      ih (by simpa using hf)]
    rfl

theorem length_le_escape (cs : List Char) : cs.length ≤ (cs.flatMap escape).length := by
  induction cs with
  | nil => simp
  | cons c cs ih =>
    obtain ⟨d, t, he, -⟩ := hescape.ne_quote c
    simp only [List.flatMap_cons, List.length_append, List.length_cons, he]
    omega

end strings

/-! ## Numbers -/

theorem isExponent_chars {t : List Char} (h : isExponent t = true) :
    ∀ c ∈ t, isNumberChar c = true := by
  cases t with
  | nil => simp
  | cons e rest =>
    simp only [isExponent, Bool.and_eq_true, Bool.or_eq_true, beq_iff_eq] at h
    obtain ⟨⟨he, -⟩, hd⟩ := h
    have hrest : ∀ c ∈ rest, isNumberChar c = true := by
      split at hd <;> intro c hc
      · rcases List.mem_cons.mp hc with rfl | hc
        · decide
        · simp [isNumberChar, List.all_eq_true.mp hd c hc]
      · rcases List.mem_cons.mp hc with rfl | hc
        · decide
        · simp [isNumberChar, List.all_eq_true.mp hd c hc]
      · simp [isNumberChar, List.all_eq_true.mp hd c hc]
    intro c hc
    rcases List.mem_cons.mp hc with rfl | hc
    · rcases he with rfl | rfl <;> decide
    · exact hrest c hc

theorem mem_takeWhile_or_dropWhile (p : Char → Bool) {t : List Char} {c : Char}
    (h : c ∈ t) : p c = true ∨ c ∈ t.dropWhile p := by
  rw [← List.takeWhile_append_dropWhile (p := p) (l := t), List.mem_append] at h
  exact h.imp (List.mem_takeWhile_imp) id

theorem isFraction_chars {t : List Char} (h : isFraction t = true) :
    ∀ c ∈ t, isNumberChar c = true := by
  unfold isFraction at h
  split at h
  · simp only [Bool.and_eq_true] at h
    intro c hc
    rcases List.mem_cons.mp hc with rfl | hc
    · decide
    · rcases mem_takeWhile_or_dropWhile Char.isDigit hc with hd | hd
      · simp [isNumberChar, hd]
      · exact isExponent_chars h.2 c hd
  · exact isExponent_chars h

theorem isInteger_chars {t : List Char} (h : isInteger t = true) :
    ∀ c ∈ t, isNumberChar c = true := by
  unfold isInteger at h
  split at h
  · intro c hc
    rcases List.mem_cons.mp hc with rfl | hc
    · decide
    · exact isFraction_chars h c hc
  · rename_i d rest _
    simp only [Bool.and_eq_true] at h
    intro c hc
    rcases List.mem_cons.mp hc with rfl | hc
    · simp [isNumberChar, h.1]
    · rcases mem_takeWhile_or_dropWhile Char.isDigit hc with hd | hd
      · simp [isNumberChar, hd]
      · exact isFraction_chars h.2 c hd
  · cases h

theorem isNumber_chars {t : List Char} (h : isNumber t = true) :
    ∀ c ∈ t, isNumberChar c = true := by
  unfold isNumber at h
  split at h
  · intro c hc
    rcases List.mem_cons.mp hc with rfl | hc
    · decide
    · exact isInteger_chars h c hc
  · exact isInteger_chars h

theorem isNumber_head {t : List Char} (h : isNumber t = true) :
    ∃ c rest, t = c :: rest ∧ isNumberChar c = true := by
  cases t with
  | nil => cases h
  | cons c rest => exact ⟨c, rest, rfl, isNumber_chars h c (by simp)⟩

/-- The text does not go on with a character of a number. -/
def Ends (s : List Char) : Prop := ∀ c t, s = c :: t → isNumberChar c = false

theorem ends_nil : Ends [] := by
  intro c t h
  cases h

theorem ends_cons {c : Char} (h : isNumberChar c = false) (s : List Char) :
    Ends (c :: s) := by
  intro d t he
  cases he
  exact h

theorem parseNumber_token (n : Number) {rest : List Char} (hr : Ends rest) :
    parseNumber (n.token ++ rest) = some (num n, rest) := by
  have hn := isNumber_chars n.isToken
  have hsplit : rest.takeWhile isNumberChar = [] ∧ rest.dropWhile isNumberChar = rest := by
    cases rest with
    | nil => exact ⟨rfl, rfl⟩
    | cons c rest => simp [hr c rest rfl]
  have h₁ : (n.token ++ rest).takeWhile isNumberChar = n.token := by
    rw [List.takeWhile_append_of_pos hn, hsplit.1, List.append_nil]
  have h₂ : (n.token ++ rest).dropWhile isNumberChar = rest := by
    rw [List.dropWhile_append_of_pos hn, hsplit.2]
  unfold parseNumber
  rw [dif_pos (by rw [h₁]; exact n.isToken)]
  simp only [h₁, h₂]

/-! ## Values -/

theorem isWs_of_isNumberChar {c : Char} (h : isNumberChar c = true) : isWs c = false := by
  cases hw : isWs c
  · rfl
  · simp only [isWs, Bool.or_eq_true, beq_iff_eq] at hw
    rcases hw with ((rfl | rfl) | rfl) | rfl <;> revert h <;> decide

theorem ne_of_isNumberChar {c d : Char} (h : isNumberChar c = true)
    (hd : isNumberChar d = false) : c ≠ d := by
  intro he
  rw [he, hd] at h
  cases h

section values
variable {escape : Char → List Char}

/-- A written value starts with a character that is not white space. -/
theorem renderWith_head (v : Json) : ∃ c t, renderWith escape v = c :: t ∧ isWs c = false
    ∧ c ≠ ']' ∧ c ≠ '}' := by
  cases v with
  | null => exact ⟨_, _, by rw [renderWith], by decide, by decide, by decide⟩
  | bool b => cases b <;> exact ⟨_, _, by rw [renderWith], by decide, by decide, by decide⟩
  | num n =>
    obtain ⟨c, t, ht, hc⟩ := isNumber_head n.isToken
    exact ⟨c, t, by rw [renderWith, ht], isWs_of_isNumberChar hc,
      ne_of_isNumberChar hc (by decide), ne_of_isNumberChar hc (by decide)⟩
  | str s => exact ⟨_, _, by rw [renderWith, quoted], by decide, by decide, by decide⟩
  | arr items => exact ⟨_, _, by rw [renderWith], by decide, by decide, by decide⟩
  | obj members => exact ⟨_, _, by rw [renderWith], by decide, by decide, by decide⟩

theorem parseValue_num (n : Number) (fuel : Nat) {rest : List Char} (hr : Ends rest) :
    parseValue (fuel + 1) (n.token ++ rest) = some (num n, rest) := by
  obtain ⟨c, t, ht, hc⟩ := isNumber_head n.isToken
  have hn := parseNumber_token n hr
  rw [ht, List.cons_append] at hn ⊢
  rw [parseValue, skipWs_cons_of_not (isWs_of_isNumberChar hc)]
  have hne : ∀ d, isNumberChar d = false → c ≠ d := fun d => ne_of_isNumberChar hc
  simp only [hne '"' (by decide), hne '[' (by decide), hne '{' (by decide),
    hne 'n' (by decide), hne 't' (by decide), hne 'f' (by decide), if_false]
  exact hn

theorem length_quoted (s : String) :
    (quoted escape s).length = (s.toList.flatMap escape).length + 2 := by
  simp [quoted]

theorem length_renderWith_pos (v : Json) : 0 < (renderWith escape v).length := by
  obtain ⟨c, t, ht, -⟩ := @renderWith_head escape v
  simp [ht]

/-! One lemma for each way the writer puts a value together. -/

theorem parseValue_str (hescape : Undone escape) (s : String) {fuel : Nat}
    (hf : (s.toList.flatMap escape).length < fuel) (rest : List Char) :
    parseValue (fuel + 1) (renderWith escape (str s) ++ rest) = some (str s, rest) := by
  have hlen := length_le_escape hescape s.toList
  have hs : parseChars fuel (s.toList.flatMap escape ++ '"' :: rest)
      = some (s.toList, rest) := parseChars_quoted hescape _ (by omega) rest
  rw [renderWith, quoted, List.cons_append, List.append_assoc, List.singleton_append,
    parseValue, skipWs_cons_of_not (by decide)]
  simp [hs]

theorem parseValue_arr {items : List Json} {fuel : Nat} {rest : List Char}
    (h : parseArray fuel (renderItemsWith escape items ++ ']' :: rest) = some (items, rest)) :
    parseValue (fuel + 1) (renderWith escape (arr items) ++ rest) = some (arr items, rest) := by
  rw [renderWith, List.cons_append, List.append_assoc, List.singleton_append,
    parseValue, skipWs_cons_of_not (by decide)]
  simp [h]

theorem parseValue_obj {members : List (String × Json)} {fuel : Nat} {rest : List Char}
    (hn : (members.map Prod.fst).Nodup)
    (h : parseObject fuel (renderMembersWith escape members ++ '}' :: rest)
      = some (members, rest)) :
    parseValue (fuel + 1) (renderWith escape (obj members) ++ rest) = some (obj members, rest) := by
  rw [renderWith, List.cons_append, List.append_assoc, List.singleton_append,
    parseValue, skipWs_cons_of_not (by decide)]
  simp [h, Keyed.dict_of_nodup hn]

theorem renderItemsWith_head (v : Json) (vs : List Json) :
    ∃ c t, renderItemsWith escape (v :: vs) = c :: t ∧ isWs c = false ∧ c ≠ ']' := by
  obtain ⟨c, t, ht, hw, hc, -⟩ := renderWith_head v
  cases vs with
  | nil => exact ⟨c, t, by rw [renderItemsWith, ht], hw, hc⟩
  | cons w vs => exact ⟨c, _, by rw [renderItemsWith, ht]; rfl, hw, hc⟩

theorem renderMembersWith_head (m : String × Json) (ms : List (String × Json)) :
    ∃ t, renderMembersWith escape (m :: ms) = '"' :: t := by
  obtain ⟨k, v⟩ := m
  cases ms with
  | nil => exact ⟨_, by rw [renderMembersWith, quoted]; rfl⟩
  | cons m' ms => exact ⟨_, by rw [renderMembersWith, quoted]; rfl⟩

theorem parseArray_items {v : Json} {vs : List Json} {fuel : Nat} {rest : List Char}
    (h : parseItems fuel (renderItemsWith escape (v :: vs) ++ ']' :: rest) = some (v :: vs, rest)) :
    parseArray (fuel + 1) (renderItemsWith escape (v :: vs) ++ ']' :: rest)
      = some (v :: vs, rest) := by
  obtain ⟨c, t, ht, hw, hc⟩ := renderItemsWith_head v vs
  rw [ht, List.cons_append] at h ⊢
  rw [parseArray, skipWs_cons_of_not hw]
  split
  · rename_i heq
    cases heq
    contradiction
  · exact h

theorem parseItems_last {v : Json} {fuel : Nat} {rest : List Char}
    (h : parseValue fuel (renderWith escape v ++ ']' :: rest) = some (v, ']' :: rest)) :
    parseItems (fuel + 1) (renderItemsWith escape [v] ++ ']' :: rest) = some ([v], rest) := by
  rw [renderItemsWith, parseItems, h, Option.bind_some]
  rfl

theorem parseItems_cons {v w : Json} {vs : List Json} {fuel : Nat} {rest : List Char}
    (hv : ∀ r, Ends r → parseValue fuel (renderWith escape v ++ r) = some (v, r))
    (h : parseItems fuel (renderItemsWith escape (w :: vs) ++ ']' :: rest) = some (w :: vs, rest)) :
    parseItems (fuel + 1) (renderItemsWith escape (v :: w :: vs) ++ ']' :: rest)
      = some (v :: w :: vs, rest) := by
  rw [renderItemsWith, List.append_assoc, List.cons_append, parseItems,
    hv _ (ends_cons (by decide) _), Option.bind_some]
  simp only [skipWs_cons_of_not (by decide : isWs ',' = false), h, Option.map_some]

theorem parseObject_members {m : String × Json} {ms : List (String × Json)} {fuel : Nat}
    {rest : List Char}
    (h : parseMembers fuel (renderMembersWith escape (m :: ms) ++ '}' :: rest)
      = some (m :: ms, rest)) :
    parseObject (fuel + 1) (renderMembersWith escape (m :: ms) ++ '}' :: rest)
      = some (m :: ms, rest) := by
  obtain ⟨t, ht⟩ := renderMembersWith_head m ms
  rw [ht, List.cons_append] at h ⊢
  rw [parseObject, skipWs_cons_of_not (by decide)]
  exact h

theorem parseMembers_last (hescape : Undone escape) {k : String} {v : Json} {fuel : Nat}
    {rest : List Char}
    (hk : (k.toList.flatMap escape).length < fuel)
    (hv : ∀ r, Ends r → parseValue fuel (renderWith escape v ++ r) = some (v, r)) :
    parseMembers (fuel + 1) (renderMembersWith escape [(k, v)] ++ '}' :: rest)
      = some ([(k, v)], rest) := by
  have hlen := length_le_escape hescape k.toList
  have hc : parseChars fuel (k.toList.flatMap escape
      ++ '"' :: ':' :: (renderWith escape v ++ '}' :: rest))
      = some (k.toList, ':' :: (renderWith escape v ++ '}' :: rest)) :=
    parseChars_quoted hescape _ (by omega) _
  have hv := hv ('}' :: rest) (ends_cons (by decide) _)
  simp only [renderMembersWith, quoted, List.cons_append, List.append_assoc,
    List.nil_append]
  rw [parseMembers]
  simp only [skipWs_cons_of_not (by decide : isWs '"' = false), hc, Option.bind_some,
    skipWs_cons_of_not (by decide : isWs ':' = false), hv,
    skipWs_cons_of_not (by decide : isWs '}' = false), String.ofList_toList]

theorem parseMembers_cons (hescape : Undone escape) {k : String} {v : Json} {m : String × Json}
    {ms : List (String × Json)} {fuel : Nat} {rest : List Char}
    (hk : (k.toList.flatMap escape).length < fuel)
    (hv : ∀ r, Ends r → parseValue fuel (renderWith escape v ++ r) = some (v, r))
    (h : parseMembers fuel (renderMembersWith escape (m :: ms) ++ '}' :: rest)
      = some (m :: ms, rest)) :
    parseMembers (fuel + 1) (renderMembersWith escape ((k, v) :: m :: ms) ++ '}' :: rest)
      = some ((k, v) :: m :: ms, rest) := by
  have hlen := length_le_escape hescape k.toList
  have hc : parseChars fuel (k.toList.flatMap escape
      ++ '"' :: ':' :: (renderWith escape v
        ++ ',' :: (renderMembersWith escape (m :: ms) ++ '}' :: rest)))
      = some (k.toList, ':' :: (renderWith escape v
        ++ ',' :: (renderMembersWith escape (m :: ms) ++ '}' :: rest))) :=
    parseChars_quoted hescape _ (by omega) _
  have hv := hv (',' :: (renderMembersWith escape (m :: ms) ++ '}' :: rest))
    (ends_cons (by decide) _)
  simp only [renderMembersWith, quoted, List.cons_append, List.append_assoc,
    List.nil_append]
  rw [parseMembers]
  simp only [skipWs_cons_of_not (by decide : isWs '"' = false), hc, Option.bind_some,
    skipWs_cons_of_not (by decide : isWs ':' = false), hv,
    skipWs_cons_of_not (by decide : isWs ',' = false), h, Option.map_some,
    String.ofList_toList]

mutual

/-- A written value is read, up to whatever follows it. Each token costs at
most three units of fuel: the value, its bracket, its first item. -/
theorem parseValue_renderWith (hescape : Undone escape) : (v : Json) → Unique v →
    (fuel : Nat) →
    3 * (renderWith escape v).length ≤ fuel → ∀ rest, Ends rest →
    parseValue fuel (renderWith escape v ++ rest) = some (v, rest)
  | v, _, 0, hf, _, _ => by
    have := @length_renderWith_pos escape v
    omega
  | null, _, _ + 1, _, _, _ => rfl
  | bool true, _, _ + 1, _, _, _ => rfl
  | bool false, _, _ + 1, _, _, _ => rfl
  | num n, _, fuel + 1, _, _, hr => by
    rw [renderWith]
    exact parseValue_num n fuel hr
  | str s, _, fuel + 1, hf, rest, _ => by
    rw [renderWith, length_quoted] at hf
    exact parseValue_str hescape s (by omega) rest
  | arr items, hu, fuel + 1, hf, rest, _ => by
    rw [Unique] at hu
    simp only [renderWith, List.length_cons, List.length_append, List.length_nil] at hf
    exact parseValue_arr (parseArray_renderWith hescape items hu fuel (by omega) rest)
  | obj members, hu, fuel + 1, hf, rest, _ => by
    rw [Unique] at hu
    simp only [renderWith, List.length_cons, List.length_append, List.length_nil] at hf
    exact parseValue_obj hu.1 (parseObject_renderWith hescape members hu.2 fuel (by omega) rest)
termination_by v => (sizeOf v, 0)

theorem parseArray_renderWith (hescape : Undone escape) : (items : List Json) →
    UniqueItems items → (fuel : Nat) →
    3 * (renderItemsWith escape items).length + 2 ≤ fuel → ∀ rest,
    parseArray fuel (renderItemsWith escape items ++ ']' :: rest) = some (items, rest)
  | _, _, 0, hf, _ => by omega
  | [], _, _ + 1, _, _ => rfl
  | v :: vs, hu, fuel + 1, hf, rest =>
    parseArray_items (parseItems_renderWith hescape v vs hu fuel (by omega) rest)
termination_by items => (sizeOf items, 1)

theorem parseItems_renderWith (hescape : Undone escape) : (v : Json) → (vs : List Json) →
    UniqueItems (v :: vs) →
    (fuel : Nat) → 3 * (renderItemsWith escape (v :: vs)).length + 1 ≤ fuel → ∀ rest,
    parseItems fuel (renderItemsWith escape (v :: vs) ++ ']' :: rest) = some (v :: vs, rest)
  | _, _, _, 0, hf, _ => by omega
  | v, [], hu, fuel + 1, hf, rest => by
    rw [UniqueItems] at hu
    rw [renderItemsWith] at hf
    exact parseItems_last
      (parseValue_renderWith hescape v hu.1 fuel (by omega) _ (ends_cons (by decide) _))
  | v, w :: vs, hu, fuel + 1, hf, rest => by
    rw [UniqueItems] at hu
    simp only [renderItemsWith, List.length_append, List.length_cons] at hf
    exact parseItems_cons (parseValue_renderWith hescape v hu.1 fuel (by omega))
      (parseItems_renderWith hescape w vs hu.2 fuel (by omega) rest)
termination_by v vs => (sizeOf (v :: vs), 0)

theorem parseObject_renderWith (hescape : Undone escape) : (members : List (String × Json)) →
    UniqueMembers members →
    (fuel : Nat) → 3 * (renderMembersWith escape members).length + 2 ≤ fuel → ∀ rest,
    parseObject fuel (renderMembersWith escape members ++ '}' :: rest) = some (members, rest)
  | _, _, 0, hf, _ => by omega
  | [], _, _ + 1, _, _ => rfl
  | m :: ms, hu, fuel + 1, hf, rest =>
    parseObject_members (parseMembers_renderWith hescape m ms hu fuel (by omega) rest)
termination_by members => (sizeOf members, 1)

theorem parseMembers_renderWith (hescape : Undone escape) : (m : String × Json) →
    (ms : List (String × Json)) → UniqueMembers (m :: ms) → (fuel : Nat) →
    3 * (renderMembersWith escape (m :: ms)).length + 1 ≤ fuel → ∀ rest,
    parseMembers fuel (renderMembersWith escape (m :: ms) ++ '}' :: rest) = some (m :: ms, rest)
  | _, _, _, 0, hf, _ => by omega
  | (k, v), [], hu, fuel + 1, hf, rest => by
    rw [UniqueMembers] at hu
    simp only [renderMembersWith, length_quoted, List.length_append,
      List.length_cons] at hf
    exact parseMembers_last hescape (by omega)
      (parseValue_renderWith hescape v hu.1 fuel (by omega))
  | (k, v), m :: ms, hu, fuel + 1, hf, rest => by
    rw [UniqueMembers] at hu
    simp only [renderMembersWith, length_quoted, List.length_append,
      List.length_cons] at hf
    exact parseMembers_cons hescape (by omega)
      (parseValue_renderWith hescape v hu.1 fuel (by omega))
      (parseMembers_renderWith hescape m ms hu.2 fuel (by omega) rest)
termination_by m ms => (sizeOf (m :: ms), 0)

end

/-- **The round trip.** -/
theorem parse_renderWith (hescape : Undone escape) {v : Json} (hu : Unique v) :
    parse (renderWith escape v) = some v := by
  have h := parseValue_renderWith hescape v hu (3 * (renderWith escape v).length + 3) (by omega)
    [] ends_nil
  rw [List.append_nil] at h
  rw [parse, h, Option.bind_some]
  rfl

end values

mutual

theorem renderWith_escapeChar : (v : Json) → renderWith escapeChar v = render v
  | null => rfl
  | bool true => rfl
  | bool false => rfl
  | num _ => rfl
  | str _ => rfl
  | arr items => by rw [renderWith, render, renderItemsWith_escapeChar items]
  | obj members => by rw [renderWith, render, renderMembersWith_escapeChar members]

theorem renderItemsWith_escapeChar : (items : List Json) →
    renderItemsWith escapeChar items = renderItems items
  | [] => rfl
  | [v] => by rw [renderItemsWith, renderItems, renderWith_escapeChar v]
  | v :: w :: vs => by
    rw [renderItemsWith, renderItems, renderWith_escapeChar v,
      renderItemsWith_escapeChar (w :: vs)]

theorem renderMembersWith_escapeChar : (members : List (String × Json)) →
    renderMembersWith escapeChar members = renderMembers members
  | [] => rfl
  | [(k, v)] => by
    rw [renderMembersWith, renderMembers, renderWith_escapeChar v]
    rfl
  | (k, v) :: m :: ms => by
    rw [renderMembersWith, renderMembers, renderWith_escapeChar v,
      renderMembersWith_escapeChar (m :: ms)]
    rfl

end

theorem parseValue_render (v : Json) (hu : Unique v) (fuel : Nat)
    (hf : 3 * (render v).length ≤ fuel) {rest : List Char} (hr : Ends rest) :
    parseValue fuel (render v ++ rest) = some (v, rest) := by
  rw [← renderWith_escapeChar v] at hf ⊢
  exact parseValue_renderWith undone_escapeChar v hu fuel hf rest hr

theorem parse_render {v : Json} (hu : Unique v) : parse (render v) = some v := by
  rw [← renderWith_escapeChar v]
  exact parse_renderWith undone_escapeChar hu

/-! ## Reading on -/

theorem hex4_append {s rest : List Char} {n : Nat} (h : hex4 s = some (n, rest))
    (x : List Char) : hex4 (s ++ x) = some (n, rest ++ x) := by
  match s with
  | a :: b :: c :: d :: t =>
    simp only [hex4, List.cons_append, Option.bind_eq_bind, Option.bind_eq_some_iff,
      Option.some.injEq, Prod.mk.injEq] at h ⊢
    obtain ⟨na, ha, nb, hb, nc, hc, nd, hd, hn, rfl⟩ := h
    exact ⟨na, ha, nb, hb, nc, hc, nd, hd, hn, rfl⟩
  | [] => cases h
  | [_] => cases h
  | [_, _] => cases h
  | [_, _, _] => cases h

theorem lowSurrogate_append {s rest : List Char} {n : Nat}
    (h : lowSurrogate s = some (n, rest)) (x : List Char) :
    lowSurrogate (s ++ x) = some (n, rest ++ x) := by
  unfold lowSurrogate at h
  split at h
  · rename_i t
    rw [Option.bind_eq_some_iff] at h
    obtain ⟨⟨lo, r⟩, hlo, h⟩ := h
    simp only [List.cons_append, lowSurrogate, hex4_append hlo x, Option.bind_some] at h ⊢
    split_ifs at h ⊢
    simp only [Option.some.injEq, Prod.mk.injEq] at h ⊢
    exact ⟨h.1, by rw [h.2]⟩
  · cases h

theorem unicodeEscape_append {s rest : List Char} {c : Char}
    (h : unicodeEscape s = some (c, rest)) (x : List Char) :
    unicodeEscape (s ++ x) = some (c, rest ++ x) := by
  simp only [unicodeEscape, Option.bind_eq_some_iff] at h ⊢
  obtain ⟨⟨hi, r⟩, hhi, h⟩ := h
  refine ⟨(hi, r ++ x), hex4_append hhi x, ?_⟩
  simp only at h ⊢
  split_ifs at h ⊢
  · rw [Option.map_eq_some_iff] at h ⊢
    obtain ⟨⟨lo, r'⟩, hlo, he⟩ := h
    rw [Prod.mk.injEq] at he
    exact ⟨(lo, r' ++ x), lowSurrogate_append hlo x, by rw [Prod.mk.injEq]; simp [← he]⟩
  · rw [Option.some.injEq, Prod.mk.injEq] at h ⊢
    simp [← h]

theorem readChar_append {s rest : List Char} {c : Char}
    (h : readChar s = some (c, rest)) (x : List Char) :
    readChar (s ++ x) = some (c, rest ++ x) := by
  unfold readChar at h
  split at h
  · cases h
  · cases h
  · rename_i d t
    simp only [List.cons_append, readChar]
    split_ifs at h ⊢
    · exact unicodeEscape_append h x
    · rw [Option.map_eq_some_iff] at h ⊢
      obtain ⟨e, he, heq⟩ := h
      cases heq
      exact ⟨c, he, rfl⟩
  · rename_i d t hd₁ hd₂
    have hd : d ≠ '\\' := by
      intro he
      cases t with
      | nil => exact hd₁ he rfl
      | cons e t => exact hd₂ e t he rfl
    split_ifs at h
    simp only [Option.some.injEq, Prod.mk.injEq] at h
    obtain ⟨rfl, rfl⟩ := h
    rw [List.cons_append, readChar.eq_4 _ _ (by simp [hd]) (by simp [hd])]
    simp [*]

theorem parseChars_append {fuel fuel' : Nat} {s rest cs : List Char}
    (h : parseChars fuel s = some (cs, rest)) (hf : fuel ≤ fuel') (x : List Char) :
    parseChars fuel' (s ++ x) = some (cs, rest ++ x) := by
  induction fuel generalizing fuel' s cs with
  | zero => cases h
  | succ fuel ih =>
    obtain ⟨fuel', rfl⟩ : ∃ f, fuel' = f + 1 := ⟨fuel' - 1, by omega⟩
    by_cases hq : ∃ t, s = '"' :: t
    · obtain ⟨t, rfl⟩ := hq
      cases h
      rfl
    · rw [parseChars.eq_3 _ _ (fun t ht => hq ⟨t, ht⟩), Option.bind_eq_some_iff] at h
      obtain ⟨⟨c, r⟩, hc, h⟩ := h
      obtain ⟨⟨cs', r'⟩, hcs, he⟩ := Option.map_eq_some_iff.mp h
      rw [Prod.mk.injEq] at he
      obtain ⟨rfl, rfl⟩ := he
      have hq' : ∀ t, s ++ x = '"' :: t → False := by
        intro t ht
        cases s with
        | nil => cases hc
        | cons d s => cases ht; exact hq ⟨_, rfl⟩
      rw [parseChars.eq_3 _ _ hq', readChar_append hc x, Option.bind_some]
      have := ih hcs (Nat.le_of_succ_le_succ hf)
      simp only [this, Option.map_some]

theorem expect_append {w s rest : List Char} (h : expect w s = some rest) (x : List Char) :
    expect w (s ++ x) = some (rest ++ x) := by
  induction w generalizing s with
  | nil =>
    cases h
    rfl
  | cons c w ih =>
    cases s with
    | nil => cases h
    | cons d s =>
      simp only [expect, List.cons_append] at h ⊢
      split_ifs at h ⊢
      exact ih h

/-- A text behind a value the value does not take in: only a number at the
very end of the text could go on. -/
def Closed (v : Json) (rest x : List Char) : Prop :=
  (∃ n, v = num n) → rest ≠ [] ∨ x = []

theorem parseNumber_append {s rest x : List Char} {v : Json}
    (h : parseNumber s = some (v, rest)) (hx : Closed v rest x) :
    parseNumber (s ++ x) = some (v, rest ++ x) := by
  unfold parseNumber at h
  split_ifs at h with hn
  simp only [Option.some.injEq, Prod.mk.injEq] at h
  obtain ⟨rfl, rfl⟩ := h
  rcases hx ⟨_, rfl⟩ with hne | rfl
  · have hs : s.takeWhile isNumberChar ++ s.dropWhile isNumberChar = s :=
      List.takeWhile_append_dropWhile
    obtain ⟨d, t, hd⟩ := List.exists_cons_of_ne_nil hne
    have hends : Ends (s.dropWhile isNumberChar ++ x) := by
      rw [hd, List.cons_append]
      refine ends_cons ?_ _
      have := List.head_dropWhile_not isNumberChar hne
      simp only [hd, List.head_cons] at this
      exact this
    have := parseNumber_token ⟨_, hn⟩ hends
    rw [← List.append_assoc, hs] at this
    exact this
  · simp [parseNumber, hn]

/-- What is read with some fuel is read with more, from any longer text. -/
structure Stable (fuel : Nat) : Prop where
  value : ∀ {s v rest}, parseValue fuel s = some (v, rest) → ∀ fuel', fuel ≤ fuel' →
    ∀ x, Closed v rest x → parseValue fuel' (s ++ x) = some (v, rest ++ x)
  array : ∀ {s vs rest}, parseArray fuel s = some (vs, rest) → ∀ fuel', fuel ≤ fuel' →
    ∀ x, parseArray fuel' (s ++ x) = some (vs, rest ++ x)
  items : ∀ {s vs rest}, parseItems fuel s = some (vs, rest) → ∀ fuel', fuel ≤ fuel' →
    ∀ x, parseItems fuel' (s ++ x) = some (vs, rest ++ x)
  object : ∀ {s ms rest}, parseObject fuel s = some (ms, rest) → ∀ fuel', fuel ≤ fuel' →
    ∀ x, parseObject fuel' (s ++ x) = some (ms, rest ++ x)
  members : ∀ {s ms rest}, parseMembers fuel s = some (ms, rest) → ∀ fuel',
    fuel ≤ fuel' → ∀ x, parseMembers fuel' (s ++ x) = some (ms, rest ++ x)

/-- A token behind a value closes it. -/
theorem closed_of_skipWs {v : Json} {rest t x : List Char} {c : Char}
    (h : skipWs rest = c :: t) : Closed v rest x := by
  intro _
  left
  rintro rfl
  cases h

namespace Stable

variable {fuel fuel' : Nat} {s rest x : List Char}

theorem value_succ (ih : Stable fuel) {v : Json}
    (h : parseValue (fuel + 1) s = some (v, rest)) (hf : fuel ≤ fuel')
    (hx : Closed v rest x) : parseValue (fuel' + 1) (s ++ x) = some (v, rest ++ x) := by
  rw [parseValue] at h ⊢
  cases hs : skipWs s with
  | nil =>
    rw [hs] at h
    cases h
  | cons c t =>
    rw [skipWs_append_cons hs]
    simp only [hs] at h ⊢
    split_ifs at h ⊢
    · obtain ⟨⟨cs, r⟩, hp, he⟩ := Option.map_eq_some_iff.mp h
      cases he
      rw [parseChars_append hp hf x]
      rfl
    · obtain ⟨⟨vs, r⟩, hp, he⟩ := Option.map_eq_some_iff.mp h
      cases he
      rw [ih.array hp fuel' hf x]
      rfl
    · obtain ⟨⟨ms, r⟩, hp, he⟩ := Option.map_eq_some_iff.mp h
      cases he
      rw [ih.object hp fuel' hf x]
      rfl
    all_goals try
      obtain ⟨r, hp, he⟩ := Option.map_eq_some_iff.mp h
      cases he
      rw [expect_append hp x]
      rfl
    exact parseNumber_append h hx

theorem array_succ (ih : Stable fuel) {vs : List Json}
    (h : parseArray (fuel + 1) s = some (vs, rest)) (hf : fuel ≤ fuel') :
    parseArray (fuel' + 1) (s ++ x) = some (vs, rest ++ x) := by
  rw [parseArray] at h
  split at h
  · rename_i t hs
    cases h
    rw [parseArray, skipWs_append_cons hs]
    rfl
  · rename_i hne
    have hi := ih.items h fuel' hf x
    cases hs : skipWs s with
    | nil =>
      -- a text of white space has no items
      cases fuel with
      | zero => cases h
      | succ fuel =>
        cases fuel with
        | zero => cases h
        | succ fuel => rw [parseItems, parseValue, hs] at h; cases h
    | cons c t =>
      rw [parseArray, skipWs_append_cons hs]
      split
      · rename_i heq
        cases heq
        exact absurd hs (hne t)
      · exact hi

theorem items_succ (ih : Stable fuel) {vs : List Json}
    (h : parseItems (fuel + 1) s = some (vs, rest)) (hf : fuel ≤ fuel') :
    parseItems (fuel' + 1) (s ++ x) = some (vs, rest ++ x) := by
  rw [parseItems] at h ⊢
  obtain ⟨⟨v, r⟩, hv, h⟩ := Option.bind_eq_some_iff.mp h
  simp only at h
  split at h
  · rename_i t hs
    obtain ⟨⟨ws, r'⟩, hi, he⟩ := Option.map_eq_some_iff.mp h
    cases he
    rw [ih.value hv fuel' hf x (closed_of_skipWs hs), Option.bind_some]
    simp only [skipWs_append_cons hs, ih.items hi fuel' hf x, Option.map_some]
  · rename_i t hs
    cases h
    rw [ih.value hv fuel' hf x (closed_of_skipWs hs), Option.bind_some]
    simp only [skipWs_append_cons hs]
  · cases h

theorem object_succ (ih : Stable fuel) {ms : List (String × Json)}
    (h : parseObject (fuel + 1) s = some (ms, rest)) (hf : fuel ≤ fuel') :
    parseObject (fuel' + 1) (s ++ x) = some (ms, rest ++ x) := by
  rw [parseObject] at h
  split at h
  · rename_i t hs
    cases h
    rw [parseObject, skipWs_append_cons hs]
    rfl
  · rename_i hne
    have hm := ih.members h fuel' hf x
    cases hs : skipWs s with
    | nil =>
      cases fuel with
      | zero => cases h
      | succ fuel => rw [parseMembers, hs] at h; cases h
    | cons c t =>
      rw [parseObject, skipWs_append_cons hs]
      split
      · rename_i heq
        cases heq
        exact absurd hs (hne t)
      · exact hm

theorem members_succ (ih : Stable fuel) {ms : List (String × Json)}
    (h : parseMembers (fuel + 1) s = some (ms, rest)) (hf : fuel ≤ fuel') :
    parseMembers (fuel' + 1) (s ++ x) = some (ms, rest ++ x) := by
  rw [parseMembers] at h ⊢
  split at h
  · rename_i t hs
    obtain ⟨⟨k, r⟩, hk, h⟩ := Option.bind_eq_some_iff.mp h
    simp only [skipWs_append_cons hs, parseChars_append hk hf x, Option.bind_some]
    simp only at h
    split at h
    · rename_i t₁ hs₁
      obtain ⟨⟨v, r₁⟩, hv, h⟩ := Option.bind_eq_some_iff.mp h
      simp only [skipWs_append_cons hs₁]
      simp only at h
      split at h
      · rename_i t₂ hs₂
        obtain ⟨⟨ms', r₂⟩, hm, he⟩ := Option.map_eq_some_iff.mp h
        cases he
        simp only [ih.value hv fuel' hf x (closed_of_skipWs hs₂), Option.bind_some,
          skipWs_append_cons hs₂, ih.members hm fuel' hf x, Option.map_some]
      · rename_i t₂ hs₂
        cases h
        simp only [ih.value hv fuel' hf x (closed_of_skipWs hs₂), Option.bind_some,
          skipWs_append_cons hs₂]
      · cases h
    · cases h
  · cases h

end Stable

theorem stable (fuel : Nat) : Stable fuel := by
  induction fuel with
  | zero =>
    constructor
    all_goals
      intro _ _ _ h
      cases h
  | succ fuel ih =>
    constructor
    all_goals intro s v rest h fuel' hf x
    all_goals obtain ⟨fuel', rfl⟩ : ∃ f, fuel' = f + 1 := ⟨fuel' - 1, by omega⟩
    all_goals have hf := Nat.le_of_succ_le_succ hf
    · exact ih.value_succ h hf
    · exact ih.array_succ h hf
    · exact ih.items_succ h hf
    · exact ih.object_succ h hf
    · exact ih.members_succ h hf

/-- Reading on, where the value is not a number. -/
theorem parseValue_append {fuel fuel' : Nat} {s rest : List Char} {v : Json}
    (h : parseValue fuel s = some (v, rest)) (hf : fuel ≤ fuel') (x : List Char)
    (hx : Closed v rest x) : parseValue fuel' (s ++ x) = some (v, rest ++ x) :=
  (stable fuel).value h fuel' hf x hx

/-- **No proper prefix of the text of an object is a document.** -/
theorem parse_prefix_render {members : List (String × Json)}
    (hu : Unique (obj members)) {p q : List Char} (hq : q ≠ [])
    (he : render (obj members) = p ++ q) : parse p = none := by
  cases hp : parse p with
  | none => rfl
  | some v =>
    obtain ⟨⟨w, rest⟩, hw, hv⟩ := Option.bind_eq_some_iff.mp hp
    have hbrace : p ≠ [] → ∃ t, p = '{' :: t := by
      intro hne
      obtain ⟨c, t, rfl⟩ := List.exists_cons_of_ne_nil hne
      rw [render, List.cons_append] at he
      exact ⟨t, by rw [(List.cons.inj he).1]⟩
    have hclosed : Closed w rest q := by
      rintro ⟨n, rfl⟩
      -- a text that starts with a brace is no number
      cases p with
      | nil => cases hw
      | cons c t =>
        obtain ⟨t', ht⟩ := hbrace (by simp)
        rw [ht, parseValue, skipWs_cons_of_not (by decide)] at hw
        simp only [Char.reduceEq, if_false, if_true] at hw
        obtain ⟨_, _, hm⟩ := Option.map_eq_some_iff.mp hw
        cases hm
    have hlong := parseValue_append hw (Nat.le_max_left _ (3 * (p ++ q).length)) q hclosed
    have hfull := parseValue_render _ hu
      (max (3 * p.length + 3) (3 * (p ++ q).length)) (by rw [he]; omega) ends_nil
    rw [List.append_nil, he, hlong, Option.some.injEq, Prod.mk.injEq] at hfull
    exact absurd (List.append_eq_nil_iff.mp hfull.2).2 hq

/-! ## The characters of a text -/

/-- The characters a writer puts around strings. -/
def Plain (c : Char) : Prop := 0x20 ≤ c.toNat ∧ c.toNat < 0x7f

instance (c : Char) : Decidable (Plain c) := inferInstanceAs (Decidable (_ ∧ _))

theorem hexDigit_plain : ∀ n < 16, Plain (hexDigit n) := by decide

/-- A character is escaped by plain characters, or stands for itself. -/
theorem escapeChar_range {c d : Char} (h : d ∈ escapeChar c) :
    (d = c ∧ 0x20 ≤ d.toNat) ∨ Plain d := by
  have hpair : ∀ e : Char, Plain e → d ∈ ['\\', e] → Plain d := by
    intro e he hd
    simp only [List.mem_cons, List.not_mem_nil, or_false] at hd
    rcases hd with rfl | rfl
    · decide
    · exact he
  unfold escapeChar at h
  split_ifs at h with h₁ h₂ h₃ h₄ h₅ h₆ h₇ h₈
  · exact .inr (hpair '"' (by decide) h)
  · exact .inr (hpair '\\' (by decide) h)
  · exact .inr (hpair 'n' (by decide) h)
  · exact .inr (hpair 'r' (by decide) h)
  · exact .inr (hpair 't' (by decide) h)
  · exact .inr (hpair 'b' (by decide) h)
  · exact .inr (hpair 'f' (by decide) h)
  · have hq := hexDigit_plain (c.toNat / 16) (by omega)
    have hr := hexDigit_plain (c.toNat % 16) (by omega)
    simp only [List.mem_cons, List.not_mem_nil, or_false] at h
    right
    rcases h with rfl | rfl | rfl | rfl | rfl | rfl
    · decide
    · decide
    · decide
    · decide
    · exact hq
    · exact hr
  · rw [List.mem_singleton] at h
    subst h
    exact .inl ⟨rfl, by omega⟩

theorem escapeChar_of_wide {c : Char} (h : 0x80 ≤ c.toNat) : escapeChar c = [c] := by
  have hne : ∀ d : Char, d.toNat < 0x80 → c ≠ d := by
    rintro d hd rfl
    omega
  rw [escapeChar, if_neg (hne '"' (by decide)), if_neg (hne '\\' (by decide)),
    if_neg (hne '\n' (by decide)), if_neg (hne '\r' (by decide)),
    if_neg (hne '\t' (by decide)), if_neg (hne '\x08' (by decide)),
    if_neg (hne '\x0c' (by decide)), if_neg (by omega : ¬c.toNat < 0x20)]

theorem plain_of_isNumberChar {c : Char} (h : isNumberChar c = true) : Plain c := by
  simp only [isNumberChar, Bool.or_eq_true, beq_iff_eq] at h
  rcases h with ((((hd | rfl) | rfl) | rfl) | rfl) | rfl
  · simp only [Char.isDigit, Bool.and_eq_true, decide_eq_true_eq, UInt32.le_iff_toNat_le] at hd
    have h₁ : c.val.toNat = c.toNat := rfl
    have h₂ : ('0'.val).toNat = 48 := rfl
    have h₃ : ('9'.val).toNat = 57 := rfl
    constructor <;> omega
  all_goals decide

section characters
variable {escape : Char → List Char}

theorem mem_quoted {s : String} {c : Char} (h : c ∈ quoted escape s) :
    (∃ d ∈ s.toList, c ∈ escape d) ∨ Plain c := by
  simp only [quoted, List.mem_cons, List.mem_append, List.mem_flatMap,
    List.not_mem_nil, or_false] at h
  rcases h with rfl | h | rfl
  · exact .inr (by decide)
  · exact .inl h
  · exact .inr (by decide)

theorem mem_word {w : List Char} (hw : ∀ c ∈ w, Plain c) {c : Char} (h : c ∈ w)
    (ds : List Char) : (∃ d ∈ ds, c ∈ escape d) ∨ Plain c := .inr (hw c h)

theorem written_mono {ds es : List Char} (hsub : ∀ d ∈ ds, d ∈ es) {c : Char}
    (h : (∃ d ∈ ds, c ∈ escape d) ∨ Plain c) : (∃ d ∈ es, c ∈ escape d) ∨ Plain c :=
  h.imp_left fun ⟨d, hd, hc⟩ => ⟨d, hsub d hd, hc⟩

mutual

/-- What stands in the text of a value: the escapes of the characters of its
strings, and what the writer puts around them. -/
theorem mem_renderWith : (v : Json) → ∀ c ∈ renderWith escape v,
    (∃ d ∈ chars v, c ∈ escape d) ∨ Plain c
  | null, _, h => mem_word (w := ['n', 'u', 'l', 'l']) (by simp [Plain]) h _
  | bool true, _, h => mem_word (w := ['t', 'r', 'u', 'e']) (by simp [Plain]) h _
  | bool false, _, h => mem_word (w := ['f', 'a', 'l', 's', 'e']) (by simp [Plain]) h _
  | num n, c, h => .inr (plain_of_isNumberChar (isNumber_chars n.isToken c h))
  | str _, _, h => mem_quoted h
  | arr items, c, h => by
    simp only [renderWith, List.mem_cons, List.mem_append, List.not_mem_nil, or_false] at h
    rw [chars]
    rcases h with rfl | h | rfl
    · exact .inr (by decide)
    · exact mem_renderItemsWith items c h
    · exact .inr (by decide)
  | obj members, c, h => by
    simp only [renderWith, List.mem_cons, List.mem_append, List.not_mem_nil, or_false] at h
    rw [chars]
    rcases h with rfl | h | rfl
    · exact .inr (by decide)
    · exact mem_renderMembersWith members c h
    · exact .inr (by decide)

theorem mem_renderItemsWith : (items : List Json) → ∀ c ∈ renderItemsWith escape items,
    (∃ d ∈ charsItems items, c ∈ escape d) ∨ Plain c
  | [], c, h => by simp [renderItemsWith] at h
  | [v], c, h => by
    rw [renderItemsWith] at h
    exact written_mono (by simp [charsItems]) (mem_renderWith v c h)
  | v :: w :: vs, c, h => by
    simp only [renderItemsWith, List.mem_append, List.mem_cons] at h
    rw [charsItems]
    rcases h with h | rfl | h
    · exact written_mono (fun d hd => List.mem_append_left _ hd) (mem_renderWith v c h)
    · exact .inr (by decide)
    · exact written_mono (fun d hd => List.mem_append_right _ hd)
        (mem_renderItemsWith (w :: vs) c h)

theorem mem_renderMembersWith : (members : List (String × Json)) →
    ∀ c ∈ renderMembersWith escape members,
    (∃ d ∈ charsMembers members, c ∈ escape d) ∨ Plain c
  | [], c, h => by simp [renderMembersWith] at h
  | [(k, v)], c, h => by
    simp only [renderMembersWith, List.mem_append, List.mem_cons] at h
    rcases h with h | rfl | h
    · exact written_mono (fun d hd => by simp [charsMembers, hd]) (mem_quoted h)
    · exact .inr (by decide)
    · exact written_mono (fun d hd => by simp [charsMembers, hd]) (mem_renderWith v c h)
  | (k, v) :: m :: ms, c, h => by
    simp only [renderMembersWith, List.mem_append, List.mem_cons] at h
    rw [charsMembers]
    rcases h with h | rfl | h | rfl | h
    · exact written_mono (fun d hd => by simp [hd]) (mem_quoted h)
    · exact .inr (by decide)
    · exact written_mono (fun d hd => by simp [hd]) (mem_renderWith v c h)
    · exact .inr (by decide)
    · exact written_mono (fun d hd => List.mem_append_right _ hd)
        (mem_renderMembersWith (m :: ms) c h)

end

end characters

/-- The text of a value has no control character below U+0020, and beyond
ASCII only what its strings have. -/
theorem render_range (v : Json) (c : Char) (h : c ∈ render v) :
    0x20 ≤ c.toNat ∧ (c ∈ chars v ∨ c.toNat < 0x80) := by
  rw [← renderWith_escapeChar v] at h
  have hplain : Plain c → 0x20 ≤ c.toNat ∧ (c ∈ chars v ∨ c.toNat < 0x80) :=
    fun hc => ⟨hc.1, .inr (by have := hc.2; omega)⟩
  obtain ⟨d, hd, hc⟩ | hc := mem_renderWith v c h
  · obtain ⟨rfl, hlow⟩ | hc := escapeChar_range hc
    · exact ⟨hlow, .inl hd⟩
    · exact hplain hc
  · exact hplain hc

theorem mem_renderString_of_wide {s : String} {c : Char} (hc : 0x80 ≤ c.toNat)
    (h : c ∈ s.toList) : c ∈ renderString s := by
  rw [renderString, List.mem_cons, List.mem_append, List.mem_flatMap]
  exact .inr (.inl ⟨c, h, by simp [escapeChar_of_wide hc]⟩)

mutual

/-- What is beyond ASCII in a string stands in the text as it is. -/
theorem mem_render_of_wide {c : Char} (hc : 0x80 ≤ c.toNat) :
    (v : Json) → c ∈ chars v → c ∈ render v
  | null, h => by simp [chars] at h
  | bool b, h => by simp [chars] at h
  | num n, h => by simp [chars] at h
  | str s, h => by
    rw [chars] at h
    rw [render]
    exact mem_renderString_of_wide hc h
  | arr items, h => by
    rw [chars] at h
    rw [render]
    simp [mem_renderItems_of_wide hc items h]
  | obj members, h => by
    rw [chars] at h
    rw [render]
    simp [mem_renderMembers_of_wide hc members h]

theorem mem_renderItems_of_wide {c : Char} (hc : 0x80 ≤ c.toNat) :
    (items : List Json) → c ∈ charsItems items → c ∈ renderItems items
  | [], h => by simp [charsItems] at h
  | [v], h => by
    simp only [charsItems, List.append_nil] at h
    rw [renderItems]
    exact mem_render_of_wide hc v h
  | v :: w :: vs, h => by
    rw [charsItems, List.mem_append] at h
    rw [renderItems, List.mem_append, List.mem_cons]
    rcases h with h | h
    · exact .inl (mem_render_of_wide hc v h)
    · exact .inr (.inr (mem_renderItems_of_wide hc (w :: vs) h))

theorem mem_renderMembers_of_wide {c : Char} (hc : 0x80 ≤ c.toNat) :
    (members : List (String × Json)) → c ∈ charsMembers members →
    c ∈ renderMembers members
  | [], h => by simp [charsMembers] at h
  | [(k, v)], h => by
    simp only [charsMembers, List.append_nil, List.mem_append] at h
    rw [renderMembers, List.mem_append, List.mem_cons]
    rcases h with h | h
    · exact .inl (mem_renderString_of_wide hc h)
    · exact .inr (.inr (mem_render_of_wide hc v h))
  | (k, v) :: m :: ms, h => by
    rw [charsMembers, List.mem_append, List.mem_append] at h
    simp only [renderMembers, List.mem_append, List.mem_cons]
    rcases h with (h | h) | h
    · exact .inl (mem_renderString_of_wide hc h)
    · exact .inr (.inr (.inl (mem_render_of_wide hc v h)))
    · exact .inr (.inr (.inr (.inr (mem_renderMembers_of_wide hc (m :: ms) h))))

end

end Json
