import AgentsRemember.Foundation.Keyed
import Mathlib.Tactic.SplitIfs

/-!
# Foundation — Json

JSON values, the compact text a serializer writes for them, and a reader of
the JSON grammar. The writer escapes the quote, the backslash and the
control characters below U+0020 and leaves every other character as it is;
the reader takes white space between tokens and every escape of the grammar.

Two results carry the module. `parse_render`: reading what was written gives
the value back. `parse_prefix_render`: no proper prefix of the text of an
object is a document. Both rest on one fact about the reader each: it reads a
written value up to whatever follows it, and reading on is stable when more
text is put behind (`parseValue_append`).
-/

namespace Json

/-! ## Values -/

/-- What may follow the digits as an exponent. -/
def isExponent : List Char → Bool
  | [] => true
  | e :: rest =>
    let ds := match rest with
      | '+' :: ds => ds
      | '-' :: ds => ds
      | ds => ds
    (e == 'e' || e == 'E') && !ds.isEmpty && ds.all Char.isDigit

/-- What may follow an integer as a fraction. -/
def isFraction : List Char → Bool
  | '.' :: rest =>
    !(rest.takeWhile Char.isDigit).isEmpty && isExponent (rest.dropWhile Char.isDigit)
  | rest => isExponent rest

/-- An integer of the grammar and what follows it. -/
def isInteger : List Char → Bool
  | '0' :: rest => isFraction rest
  | d :: rest => d.isDigit && isFraction (rest.dropWhile Char.isDigit)
  | [] => false

/-- The number tokens of the grammar. -/
def isNumber : List Char → Bool
  | '-' :: rest => isInteger rest
  | rest => isInteger rest

/-- A number, kept as its token: what a reader makes of it is its own
affair, what is written and read back is the token. -/
structure Number where
  token : List Char
  isToken : isNumber token = true

end Json

/-- A JSON value. The members of an object keep their order. -/
inductive Json where
  | null
  | bool (b : Bool)
  | num (n : Json.Number)
  | str (s : String)
  | arr (items : List Json)
  | obj (members : List (String × Json))

namespace Json

mutual

/-- No object in the value names a member twice. -/
def Unique : Json → Prop
  | arr items => UniqueItems items
  | obj members => (members.map Prod.fst).Nodup ∧ UniqueMembers members
  | _ => True

/-- No object in these items names a key twice. -/
def UniqueItems : List Json → Prop
  | [] => True
  | v :: rest => Unique v ∧ UniqueItems rest

/-- No object in these members names a key twice. -/
def UniqueMembers : List (String × Json) → Prop
  | [] => True
  | (_, v) :: rest => Unique v ∧ UniqueMembers rest

end

theorem uniqueItems_iff {items : List Json} :
    UniqueItems items ↔ ∀ v ∈ items, Unique v := by
  induction items with
  | nil => simp [UniqueItems]
  | cons v rest ih => simp [UniqueItems, ih]

theorem uniqueMembers_iff {members : List (String × Json)} :
    UniqueMembers members ↔ ∀ m ∈ members, Unique m.2 := by
  induction members with
  | nil => simp [UniqueMembers]
  | cons m rest ih =>
    obtain ⟨k, v⟩ := m
    rw [UniqueMembers, ih]
    simp

mutual

/-- Uniqueness is decided by going through the value. -/
def decideUnique : (v : Json) → Decidable (Unique v)
  | null => isTrue trivial
  | bool _ => isTrue trivial
  | num _ => isTrue trivial
  | str _ => isTrue trivial
  | arr items => decideUniqueItems items
  | obj members =>
    have := decideUniqueMembers members
    inferInstanceAs (Decidable ((members.map Prod.fst).Nodup ∧ UniqueMembers members))

/-- The same for items. -/
def decideUniqueItems : (items : List Json) → Decidable (UniqueItems items)
  | [] => isTrue trivial
  | v :: rest =>
    have := decideUnique v
    have := decideUniqueItems rest
    inferInstanceAs (Decidable (Unique v ∧ UniqueItems rest))

/-- The same for members. -/
def decideUniqueMembers : (members : List (String × Json)) →
    Decidable (UniqueMembers members)
  | [] => isTrue trivial
  | (_, v) :: rest =>
    have := decideUnique v
    have := decideUniqueMembers rest
    inferInstanceAs (Decidable (Unique v ∧ UniqueMembers rest))

end

instance (v : Json) : Decidable (Unique v) := decideUnique v

mutual

/-- Every character of every string in the value, member names included. -/
def chars : Json → List Char
  | str s => s.toList
  | arr items => charsItems items
  | obj members => charsMembers members
  | _ => []

/-- The characters of the items. -/
def charsItems : List Json → List Char
  | [] => []
  | v :: rest => chars v ++ charsItems rest

/-- The characters of the members. -/
def charsMembers : List (String × Json) → List Char
  | [] => []
  | (k, v) :: rest => k.toList ++ chars v ++ charsMembers rest

end

/-! ## The writer -/

/-- A hexadecimal digit. -/
def hexDigit (n : Nat) : Char :=
  if n < 10 then Char.ofNat ('0'.toNat + n) else Char.ofNat ('a'.toNat + (n - 10))

/-- The text of one character of a string. -/
def escapeChar (c : Char) : List Char :=
  if c = '"' then ['\\', '"']
  else if c = '\\' then ['\\', '\\']
  else if c = '\n' then ['\\', 'n']
  else if c = '\r' then ['\\', 'r']
  else if c = '\t' then ['\\', 't']
  else if c = '\x08' then ['\\', 'b']
  else if c = '\x0c' then ['\\', 'f']
  else if c.toNat < 0x20 then
    ['\\', 'u', '0', '0', hexDigit (c.toNat / 16), hexDigit (c.toNat % 16)]
  else [c]

/-- A string between quotes, escaped. -/
def renderString (s : String) : List Char :=
  '"' :: (s.toList.flatMap escapeChar ++ ['"'])

mutual

/-- The compact text of a value. -/
def render : Json → List Char
  | null => ['n', 'u', 'l', 'l']
  | bool true => ['t', 'r', 'u', 'e']
  | bool false => ['f', 'a', 'l', 's', 'e']
  | num n => n.token
  | str s => renderString s
  | arr items => '[' :: (renderItems items ++ [']'])
  | obj members => '{' :: (renderMembers members ++ ['}'])

/-- The items with commas between them. -/
def renderItems : List Json → List Char
  | [] => []
  | [v] => render v
  | v :: w :: rest => render v ++ ',' :: renderItems (w :: rest)

/-- The members with commas between them. -/
def renderMembers : List (String × Json) → List Char
  | [] => []
  | [(k, v)] => renderString k ++ ':' :: render v
  | (k, v) :: m :: rest =>
    renderString k ++ ':' :: (render v ++ ',' :: renderMembers (m :: rest))

end

/-! The writers of the grammar differ in what they escape. -/

/-- A string between quotes, under another escape. -/
def quoted (escape : Char → List Char) (s : String) : List Char :=
  '"' :: (s.toList.flatMap escape ++ ['"'])

mutual

/-- The compact text of a value, by a writer with escapes of its own. -/
def renderWith (escape : Char → List Char) : Json → List Char
  | null => ['n', 'u', 'l', 'l']
  | bool true => ['t', 'r', 'u', 'e']
  | bool false => ['f', 'a', 'l', 's', 'e']
  | num n => n.token
  | str s => quoted escape s
  | arr items => '[' :: (renderItemsWith escape items ++ [']'])
  | obj members => '{' :: (renderMembersWith escape members ++ ['}'])

/-- The items, under another escape. -/
def renderItemsWith (escape : Char → List Char) : List Json → List Char
  | [] => []
  | [v] => renderWith escape v
  | v :: w :: rest => renderWith escape v ++ ',' :: renderItemsWith escape (w :: rest)

/-- The members, under another escape. -/
def renderMembersWith (escape : Char → List Char) : List (String × Json) → List Char
  | [] => []
  | [(k, v)] => quoted escape k ++ ':' :: renderWith escape v
  | (k, v) :: m :: rest =>
    quoted escape k ++ ':' :: (renderWith escape v ++ ',' :: renderMembersWith escape (m :: rest))

end

/-! ## The reader -/

/-- White space of the grammar. -/
def isWs (c : Char) : Bool := c == ' ' || c == '\t' || c == '\n' || c == '\r'

/-- The text behind its white space. -/
def skipWs (s : List Char) : List Char := s.dropWhile isWs

/-- The value of a hexadecimal digit. -/
def hexValue (c : Char) : Option Nat :=
  if '0' ≤ c ∧ c ≤ '9' then some (c.toNat - '0'.toNat)
  else if 'a' ≤ c ∧ c ≤ 'f' then some (c.toNat - 'a'.toNat + 10)
  else if 'A' ≤ c ∧ c ≤ 'F' then some (c.toNat - 'A'.toNat + 10)
  else none

/-- Four hexadecimal digits. -/
def hex4 : List Char → Option (Nat × List Char)
  | a :: b :: c :: d :: rest => do
    let a ← hexValue a
    let b ← hexValue b
    let c ← hexValue c
    let d ← hexValue d
    some (((a * 16 + b) * 16 + c) * 16 + d, rest)
  | _ => none

/-- The second half of a surrogate pair. -/
def lowSurrogate : List Char → Option (Nat × List Char)
  | '\\' :: 'u' :: rest =>
    (hex4 rest).bind fun (lo, rest) =>
      if 0xDC00 ≤ lo ∧ lo < 0xE000 then some (lo, rest) else none
  | _ => none

/-- The character of a `\u` escape, of two halves where the first is one. -/
def unicodeEscape (s : List Char) : Option (Char × List Char) :=
  (hex4 s).bind fun (hi, rest) =>
    if 0xD800 ≤ hi ∧ hi < 0xDC00 then
      (lowSurrogate rest).map fun (lo, rest) =>
        (Char.ofNat (0x10000 + (hi - 0xD800) * 0x400 + (lo - 0xDC00)), rest)
    else if 0xDC00 ≤ hi ∧ hi < 0xE000 then none
    else some (Char.ofNat hi, rest)

/-- The character of a short escape. -/
def shortEscape (c : Char) : Option Char :=
  if c = '"' then some '"'
  else if c = '\\' then some '\\'
  else if c = '/' then some '/'
  else if c = 'b' then some '\x08'
  else if c = 'f' then some '\x0c'
  else if c = 'n' then some '\n'
  else if c = 'r' then some '\r'
  else if c = 't' then some '\t'
  else none

/-- One character of a string body, not its closing quote. -/
def readChar : List Char → Option (Char × List Char)
  | [] => none
  | '\\' :: [] => none
  | '\\' :: c :: rest =>
    if c = 'u' then unicodeEscape rest else (shortEscape c).map (·, rest)
  | c :: rest => if c.toNat < 0x20 then none else some (c, rest)

/-- A string body up to and with its closing quote. -/
def parseChars : Nat → List Char → Option (List Char × List Char)
  | 0, _ => none
  | _ + 1, '"' :: rest => some ([], rest)
  | fuel + 1, s =>
    (readChar s).bind fun (c, rest) =>
      (parseChars fuel rest).map fun (cs, rest) => (c :: cs, rest)

/-- What may stand in a number. -/
def isNumberChar (c : Char) : Bool :=
  c.isDigit || c == '-' || c == '+' || c == '.' || c == 'e' || c == 'E'

/-- A number and what follows it. -/
def parseNumber (s : List Char) : Option (Json × List Char) :=
  if h : isNumber (s.takeWhile isNumberChar) then
    some (num ⟨s.takeWhile isNumberChar, h⟩, s.dropWhile isNumberChar)
  else none

/-- The rest of a text behind a fixed word. -/
def expect : List Char → List Char → Option (List Char)
  | [], s => some s
  | _ :: _, [] => none
  | c :: w, d :: s => if c = d then expect w s else none

mutual

/-- One value. An object is read into a dictionary: of two members of one
name the later value stands. Fuel bounds the nesting and the lengths, and
three times the text is enough for what a writer wrote (`parse_render`). -/
def parseValue : Nat → List Char → Option (Json × List Char)
  | 0, _ => none
  | fuel + 1, s =>
    match skipWs s with
    | [] => none
    | c :: rest =>
      if c = '"' then
        (parseChars fuel rest).map fun (cs, rest) => (str (String.ofList cs), rest)
      else if c = '[' then
        (parseArray fuel rest).map fun (vs, rest) => (arr vs, rest)
      else if c = '{' then
        (parseObject fuel rest).map fun (ms, rest) => (obj (Keyed.dict ms), rest)
      else if c = 'n' then (expect ['u', 'l', 'l'] rest).map (null, ·)
      else if c = 't' then (expect ['r', 'u', 'e'] rest).map (bool true, ·)
      else if c = 'f' then (expect ['a', 'l', 's', 'e'] rest).map (bool false, ·)
      else parseNumber (c :: rest)

/-- The items of an array behind its opening bracket. -/
def parseArray : Nat → List Char → Option (List Json × List Char)
  | 0, _ => none
  | fuel + 1, s =>
    match skipWs s with
    | ']' :: rest => some ([], rest)
    | _ => parseItems fuel s

/-- The items of an array and what follows them. -/
def parseItems : Nat → List Char → Option (List Json × List Char)
  | 0, _ => none
  | fuel + 1, s =>
    (parseValue fuel s).bind fun (v, rest) =>
      match skipWs rest with
      | ',' :: rest => (parseItems fuel rest).map fun (vs, rest) => (v :: vs, rest)
      | ']' :: rest => some ([v], rest)
      | _ => none

/-- The members of an object behind its opening brace. -/
def parseObject : Nat → List Char → Option (List (String × Json) × List Char)
  | 0, _ => none
  | fuel + 1, s =>
    match skipWs s with
    | '}' :: rest => some ([], rest)
    | _ => parseMembers fuel s

/-- The members of an object and what follows them. -/
def parseMembers : Nat → List Char → Option (List (String × Json) × List Char)
  | 0, _ => none
  | fuel + 1, s =>
    match skipWs s with
    | '"' :: rest =>
      (parseChars fuel rest).bind fun (k, rest) =>
        match skipWs rest with
        | ':' :: rest =>
          (parseValue fuel rest).bind fun (v, rest) =>
            match skipWs rest with
            | ',' :: rest =>
              (parseMembers fuel rest).map fun (ms, rest) =>
                ((String.ofList k, v) :: ms, rest)
            | '}' :: rest => some ([(String.ofList k, v)], rest)
            | _ => none
        | _ => none
    | _ => none

end

/-- A document: one value, with white space around it. -/
def parse (s : List Char) : Option Json :=
  (parseValue (3 * s.length + 3) s).bind fun (v, rest) =>
    if skipWs rest = [] then some v else none

end Json
