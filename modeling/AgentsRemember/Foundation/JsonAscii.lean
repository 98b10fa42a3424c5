import AgentsRemember.Foundation.JsonRoundTrip

/-!
# Foundation — JsonAscii

The writer that keeps to ASCII: every character outside of it is escaped, in
two halves when it lies beyond the basic plane. What is written here is an
object of natural numbers on one line, and an object of strings with a line
for each member.

`parse_renderCounts`, `parse_renderIndented` : the reader gives the objects back.
-/

namespace Json

/-- Sixteen bits as four hexadecimal digits. -/
def hexUnit (n : Nat) : List Char :=
  [hexDigit (n / 0x1000 % 16), hexDigit (n / 0x100 % 16), hexDigit (n / 16 % 16),
    hexDigit (n % 16)]

/-- The escape of one code unit. -/
def escapeUnit (n : Nat) : List Char := '\\' :: 'u' :: hexUnit n

/-- A character, escaped where it is not printable ASCII. -/
def escapeAscii (c : Char) : List Char :=
  if c.toNat < 0x7f then escapeChar c
  else if c.toNat < 0x10000 then escapeUnit c.toNat
  else
    escapeUnit (0xD800 + (c.toNat - 0x10000) / 0x400) ++
      escapeUnit (0xDC00 + (c.toNat - 0x10000) % 0x400)

/-- A string in ASCII. -/
def renderAscii (s : String) : List Char := '"' :: (s.toList.flatMap escapeAscii ++ ['"'])

/-- The members of an object of natural numbers. -/
def renderEntries : List (String × Nat) → List Char
  | [] => []
  | [(k, n)] => renderAscii k ++ ':' :: Nat.toDigits 10 n
  | (k, n) :: e :: rest =>
    renderAscii k ++ ':' :: (Nat.toDigits 10 n ++ ',' :: renderEntries (e :: rest))

/-- An object of numbers on one line. -/
def renderCounts (entries : List (String × Nat)) : List Char :=
  '{' :: (renderEntries entries ++ ['}'])

/-! ## Numbers -/

theorem toDigits_head {n : Nat} (hn : n ≠ 0) :
    ∃ d ds, Nat.toDigits 10 n = d :: ds ∧ d ≠ '0' := by
  induction n using Nat.strongRecOn with
  | ind n ih =>
    rw [Nat.toDigits_eq_if (by decide)]
    split
    · rename_i h
      refine ⟨_, _, rfl, ?_⟩
      have : ∀ m < 10, m ≠ 0 → Nat.digitChar m ≠ '0' := by decide
      exact this n h hn
    · obtain ⟨d, ds, hds, hd⟩ := ih (n / 10) (by omega) (by omega)
      exact ⟨d, ds ++ [Nat.digitChar (n % 10)], by rw [hds, List.cons_append], hd⟩

theorem digits_of_toDigits {n : Nat} {c : Char} (h : c ∈ Nat.toDigits 10 n) :
    c.isDigit = true := Nat.isDigit_of_mem_toDigits (by decide) (by decide) h

theorem isNumber_toDigits (n : Nat) : isNumber (Nat.toDigits 10 n) = true := by
  by_cases hn : n = 0
  · subst hn
    decide
  · obtain ⟨d, ds, hds, hd⟩ := toDigits_head hn
    have hdigits : ∀ c ∈ d :: ds, c.isDigit = true := fun c hc => digits_of_toDigits (hds ▸ hc)
    have hd' := hdigits d (by simp)
    have hminus : d ≠ '-' := by
      rintro rfl
      revert hd'
      decide
    have hrest : ds.dropWhile Char.isDigit = [] := by
      rw [List.dropWhile_eq_nil_iff]
      exact fun c hc => hdigits c (by simp [hc])
    rw [hds]
    unfold isNumber
    split
    · rename_i heq
      cases heq
      exact absurd rfl hminus
    · unfold isInteger
      split
      · rename_i heq
        cases heq
        exact absurd rfl hd
      · rename_i heq
        cases heq
        rw [hd', hrest]
        rfl
      · rename_i heq
        cases heq

/-- A natural number as a token. -/
def Number.ofNat (n : Nat) : Number := ⟨Nat.toDigits 10 n, isNumber_toDigits n⟩

/-- The natural number a token stands for: an integer, and not a negative one. -/
def Number.toNat? (n : Number) : Option Nat :=
  match n.token with
  | '-' :: ds => if ds.all Char.isDigit ∧ Nat.ofDigitChars 10 ds 0 = 0 then some 0 else none
  | ds => if ds.all Char.isDigit then some (Nat.ofDigitChars 10 ds 0) else none

theorem Number.toNat?_ofNat (n : Nat) : (Number.ofNat n).toNat? = some n := by
  have hdigits : ∀ c ∈ Nat.toDigits 10 n, c.isDigit = true := fun c => digits_of_toDigits
  unfold toNat? Number.ofNat
  dsimp only
  split
  · rename_i heq
    exact absurd (hdigits '-' (by rw [heq]; simp)) (by decide)
  · rw [if_pos (List.all_eq_true.mpr hdigits), Nat.ofDigitChars_ten_toDigits]

/-! ## Strings -/

theorem hex4_unit {n : Nat} (hn : n < 0x10000) (rest : List Char) :
    hex4 (hexUnit n ++ rest) = some (n, rest) := by
  have h := hex4_hexDigits (a := n / 0x1000 % 16) (b := n / 0x100 % 16) (c := n / 16 % 16)
    (d := n % 16) (by omega) (by omega) (by omega) (by omega) rest
  have hn : ((n / 0x1000 % 16 * 16 + n / 0x100 % 16) * 16 + n / 16 % 16) * 16 + n % 16 = n := by
    omega
  rw [hn] at h
  exact h

theorem readChar_unit (n : Nat) (rest : List Char) :
    readChar (escapeUnit n ++ rest) = unicodeEscape (hexUnit n ++ rest) := rfl

theorem lowSurrogate_unit {n : Nat} (hn : 0xDC00 ≤ n ∧ n < 0xE000) (rest : List Char) :
    lowSurrogate (escapeUnit n ++ rest) = some (n, rest) := by
  show (hex4 (hexUnit n ++ rest)).bind _ = _
  rw [hex4_unit (by omega), Option.bind_some]
  dsimp only
  rw [if_pos hn]

theorem escapeAscii_ne_quote (c : Char) : ∃ d t, escapeAscii c = d :: t ∧ d ≠ '"' := by
  unfold escapeAscii
  split
  · exact escapeChar_ne_quote c
  · split
    · exact ⟨_, _, rfl, by decide⟩
    · exact ⟨_, _, rfl, by decide⟩

theorem readChar_escapeAscii (c : Char) (rest : List Char) :
    readChar (escapeAscii c ++ rest) = some (c, rest) := by
  unfold escapeAscii
  have hvalid : c.toNat < 0xD800 ∨ 0xDFFF < c.toNat ∧ c.toNat < 0x110000 := c.valid
  split
  · exact readChar_escapeChar c rest
  · split
    · rename_i hlow
      rw [readChar_unit, unicodeEscape, hex4_unit hlow, Option.bind_some]
      dsimp only
      rw [if_neg (by omega), if_neg (by omega), Char.ofNat_toNat]
    · rename_i hlow
      rw [List.append_assoc, readChar_unit, unicodeEscape, hex4_unit (by omega),
        Option.bind_some]
      dsimp only
      rw [if_pos (by omega), lowSurrogate_unit (by omega), Option.map_some]
      dsimp only
      have hback : 0x10000 + (0xD800 + (c.toNat - 0x10000) / 0x400 - 0xD800) * 0x400 +
          (0xDC00 + (c.toNat - 0x10000) % 0x400 - 0xDC00) = c.toNat := by omega
      rw [hback, Char.ofNat_toNat]

theorem undone_escapeAscii : Undone escapeAscii := ⟨escapeAscii_ne_quote, readChar_escapeAscii⟩

theorem escapeUnit_plain (n : Nat) {c : Char} (h : c ∈ escapeUnit n) : Plain c := by
  simp only [escapeUnit, hexUnit, List.mem_cons, List.not_mem_nil, or_false] at h
  rcases h with rfl | rfl | rfl | rfl | rfl | rfl
  · decide
  · decide
  all_goals exact hexDigit_plain _ (Nat.mod_lt _ (by decide))

theorem escapeAscii_plain {c d : Char} (h : d ∈ escapeAscii c) : Plain d := by
  unfold escapeAscii at h
  split at h
  · obtain ⟨rfl, hlow⟩ | hd := escapeChar_range h
    · exact ⟨hlow, by assumption⟩
    · exact hd
  · split at h
    · exact escapeUnit_plain _ h
    · rcases List.mem_append.mp h with h | h <;> exact escapeUnit_plain _ h

/-! ## Objects of numbers -/

/-- A member whose value is a number. -/
def countMember (e : String × Nat) : String × Json := (e.1, num (Number.ofNat e.2))

theorem renderEntries_eq (entries : List (String × Nat)) :
    renderEntries entries = renderMembersWith escapeAscii (entries.map countMember) := by
  induction entries with
  | nil => rfl
  | cons e es ih =>
    obtain ⟨k, n⟩ := e
    cases es with
    | nil => rfl
    | cons e' es =>
      rw [renderEntries, ih]
      rfl

theorem parse_renderCounts {entries : List (String × Nat)}
    (h : (entries.map Prod.fst).Nodup) :
    parse (renderCounts entries) = some (obj (entries.map countMember)) := by
  have hu : Unique (obj (entries.map countMember)) := by
    refine ⟨?_, uniqueMembers_iff.mpr ?_⟩
    · rw [List.map_map]
      exact h
    · intro m hm
      obtain ⟨e, -, rfl⟩ := List.mem_map.mp hm
      trivial
  rw [renderCounts, renderEntries_eq]
  exact parse_renderWith undone_escapeAscii hu

/-! ## Objects of strings, a line for each member -/

/-- A member on a line of its own. -/
def renderLine (member : String × String) : List Char :=
  ['\n', ' ', ' '] ++ renderAscii member.1 ++ [':', ' '] ++ renderAscii member.2

/-- The members, a line each. -/
def renderLines : List (String × String) → List Char
  | [] => []
  | [member] => renderLine member
  | member :: next :: rest => renderLine member ++ ',' :: renderLines (next :: rest)

/-- The text of an object with an indent of two. -/
def renderIndented : List (String × String) → List Char
  | [] => ['{', '}']
  | members => '{' :: (renderLines members ++ ['\n', '}'])

/-- A member whose value is a string. -/
def stringMember (member : String × String) : String × Json := (member.1, str member.2)

theorem parseValue_skip {c : Char} (h : isWs c = true) (fuel : Nat) (s : List Char) :
    parseValue fuel (c :: s) = parseValue fuel s := by
  have hskip : skipWs (c :: s) = skipWs s := by simp [skipWs, h]
  cases fuel with
  | zero => rfl
  | succ fuel => rw [parseValue, parseValue, hskip]

theorem parseValue_ascii (s : String) {fuel : Nat} (hfuel : (renderAscii s).length ≤ fuel)
    (rest : List Char) : parseValue fuel (renderAscii s ++ rest) = some (str s, rest) := by
  have hlength : (renderAscii s).length = (s.toList.flatMap escapeAscii).length + 2 := by
    simp [renderAscii]
  obtain ⟨fuel, rfl⟩ : ∃ f, fuel = f + 1 := ⟨fuel - 1, by omega⟩
  exact parseValue_str undone_escapeAscii s (by omega) rest

/-- A member on a line of its own is read up to what follows it. -/
theorem parseMembers_line (member : String × String) {fuel : Nat}
    (hfuel : (renderLine member).length ≤ fuel) (rest : List Char) :
    parseMembers (fuel + 1) (renderLine member ++ rest) =
      match skipWs rest with
      | ',' :: rest => (parseMembers fuel rest).map fun (ms, rest) => (stringMember member :: ms, rest)
      | '}' :: rest => some ([stringMember member], rest)
      | _ => none := by
  have hlength := length_le_escape undone_escapeAscii member.1.toList
  simp only [renderLine, renderAscii, List.length_append, List.length_cons, List.length_nil] at hfuel
  have hkey : parseChars fuel (member.1.toList.flatMap escapeAscii ++
      '"' :: ':' :: ' ' :: (renderAscii member.2 ++ rest)) =
        some (member.1.toList, ':' :: ' ' :: (renderAscii member.2 ++ rest)) :=
    parseChars_quoted undone_escapeAscii _ (by omega) _
  have hvalue : parseValue fuel (' ' :: (renderAscii member.2 ++ rest)) = some (str member.2, rest) := by
    rw [parseValue_skip (by decide)]
    refine parseValue_ascii member.2 ?_ rest
    simp only [renderAscii, List.length_append, List.length_cons, List.length_nil]
    omega
  have hskip : skipWs (renderLine member ++ rest) = '"' :: (member.1.toList.flatMap escapeAscii ++
      '"' :: ':' :: ' ' :: (renderAscii member.2 ++ rest)) := by
    simp [renderLine, renderAscii, skipWs, isWs]
  rw [parseMembers, hskip]
  simp only [hkey, Option.bind_some, skipWs_cons_of_not (by decide : isWs ':' = false), hvalue,
    String.ofList_toList]
  rfl

/-- Each member costs no more fuel than its line has characters. -/
theorem parseMembers_renderLines (member : String × String) (members : List (String × String))
    {fuel : Nat} (hfuel : (renderLines (member :: members)).length < fuel) (rest : List Char) :
    parseMembers fuel (renderLines (member :: members) ++ '\n' :: '}' :: rest) =
      some ((member :: members).map stringMember, rest) := by
  obtain ⟨fuel, rfl⟩ : ∃ f, fuel = f + 1 := ⟨fuel - 1, by omega⟩
  induction members generalizing member fuel with
  | nil =>
    rw [renderLines] at hfuel ⊢
    rw [parseMembers_line member (by omega)]
    rfl
  | cons next members ih =>
    rw [renderLines, List.length_append, List.length_cons] at hfuel
    have hpos : 0 < (renderLine member).length := by simp [renderLine]
    obtain ⟨fuel, rfl⟩ : ∃ f, fuel = f + 1 := ⟨fuel - 1, by omega⟩
    rw [renderLines, List.append_assoc, parseMembers_line member (by omega)]
    simp only [List.cons_append, skipWs_cons_of_not (by decide : isWs ',' = false)]
    rw [ih next fuel (by omega), Option.map_some]
    rfl

theorem skipWs_renderLines (member : String × String) (members : List (String × String))
    (rest : List Char) : ∃ t, skipWs (renderLines (member :: members) ++ rest) = '"' :: t := by
  cases members <;> simp [renderLines, renderLine, renderAscii, skipWs, isWs]

/-- An object with an indent is read back, in the order of its members. -/
theorem parse_renderIndented {members : List (String × String)}
    (h : (members.map Prod.fst).Nodup) :
    parse (renderIndented members) = some (obj (members.map stringMember)) := by
  cases members with
  | nil => rfl
  | cons member members =>
    have hkeys : (((member :: members).map stringMember).map Prod.fst).Nodup := by
      rw [List.map_map]
      exact h
    have hmembers : ∀ fuel, (renderLines (member :: members)).length < fuel →
        parseObject (fuel + 1) (renderLines (member :: members) ++ ['\n', '}']) =
          some ((member :: members).map stringMember, []) := by
      intro fuel hfuel
      obtain ⟨t, ht⟩ := skipWs_renderLines member members ['\n', '}']
      rw [parseObject, ht]
      exact parseMembers_renderLines member members hfuel []
    have hlength : (renderIndented (member :: members)).length =
        (renderLines (member :: members)).length + 3 := by
      simp [renderIndented]
    have hvalue : ∀ fuel, (renderLines (member :: members)).length < fuel →
        parseValue (fuel + 2) (renderIndented (member :: members)) =
          some (obj ((member :: members).map stringMember), []) := by
      intro fuel hfuel
      have hindent : renderIndented (member :: members) =
          '{' :: (renderLines (member :: members) ++ ['\n', '}']) := rfl
      rw [hindent, parseValue, skipWs_cons_of_not (by decide)]
      simp only [if_false, if_true, Char.reduceEq, hmembers fuel hfuel,
        Option.map_some, Keyed.dict_of_nodup hkeys]
    rw [parse, hlength, hvalue _ (by omega), Option.bind_some]
    rfl

end Json
