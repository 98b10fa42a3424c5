import Mathlib.Data.List.Basic

/-!
# Foundation — Base64

The URL-safe base64 text of bytes, and a reader that is as lenient as the
usual libraries are: it takes the characters of both alphabets, skips every
other one, stops at the padding that completes a group of four, and refuses a
text that ends inside a group. `decode_encode`: reading what was written gives
the bytes back.
-/

namespace Base64

/-- The character of six bits. -/
def digit (n : Nat) : Char :=
  if n < 26 then Char.ofNat ('A'.toNat + n)
  else if n < 52 then Char.ofNat ('a'.toNat + (n - 26))
  else if n < 62 then Char.ofNat ('0'.toNat + (n - 52))
  else if n = 62 then '-'
  else '_'

/-- The six bits of a character. -/
def value (c : Char) : Option Nat :=
  if 'A' ≤ c ∧ c ≤ 'Z' then some (c.toNat - 'A'.toNat)
  else if 'a' ≤ c ∧ c ≤ 'z' then some (c.toNat - 'a'.toNat + 26)
  else if '0' ≤ c ∧ c ≤ '9' then some (c.toNat - '0'.toNat + 52)
  else if c = '-' ∨ c = '+' then some 62
  else if c = '_' ∨ c = '/' then some 63
  else none

/-- The text of bytes, padded. -/
def encode : List UInt8 → List Char
  | [] => []
  | [a] => [digit (a.toNat / 4), digit (a.toNat % 4 * 16), '=', '=']
  | [a, b] =>
    [digit (a.toNat / 4), digit (a.toNat % 4 * 16 + b.toNat / 16),
      digit (b.toNat % 16 * 4), '=']
  | a :: b :: c :: rest =>
    digit (a.toNat / 4) :: digit (a.toNat % 4 * 16 + b.toNat / 16) ::
      digit (b.toNat % 16 * 4 + c.toNat / 64) :: digit (c.toNat % 64) :: encode rest

/-- Where a reader stands: how many characters of the group it has taken, the
bits of them not yet given out, and the padding seen since. -/
structure Reader where
  quad : Nat := 0
  left : Nat := 0
  pads : Nat := 0

/-- The bytes of a text, from where a reader stands. -/
def decodeFrom (r : Reader) : List Char → Option (List UInt8)
  | [] => if r.quad = 0 then some [] else none
  | c :: rest =>
    if c = '=' then
      if 2 ≤ r.quad then
        -- a full quad ends the text, whatever follows
        if 4 ≤ r.quad + (r.pads + 1) then some []
        else decodeFrom { r with pads := r.pads + 1 } rest
      else decodeFrom r rest
    else
      match value c with
      -- what is not in the alphabet is passed over
      | none => decodeFrom r rest
      | some v =>
        match r.quad with
        | 0 => decodeFrom { quad := 1, left := v } rest
        | 1 =>
          (decodeFrom { quad := 2, left := v % 16 } rest).map
            (UInt8.ofNat (r.left * 4 + v / 16) :: ·)
        | 2 =>
          (decodeFrom { quad := 3, left := v % 4 } rest).map
            (UInt8.ofNat (r.left * 16 + v / 4) :: ·)
        | _ =>
          (decodeFrom { quad := 0, left := 0 } rest).map (UInt8.ofNat (r.left * 64 + v) :: ·)

/-- The bytes of a text, from its beginning. -/
def decode (s : List Char) : Option (List UInt8) := decodeFrom {} s

/-! ## Reading what was written -/

theorem group_induction {motive : List UInt8 → Prop} (nil : motive []) (one : ∀ a, motive [a])
    (two : ∀ a b, motive [a, b])
    (group : ∀ a b c rest, motive rest → motive (a :: b :: c :: rest)) : ∀ bytes, motive bytes
  | [] => nil
  | [a] => one a
  | [a, b] => two a b
  | a :: b :: c :: rest => group a b c rest (group_induction nil one two group rest)

theorem encode_one (a : UInt8) :
    encode [a] = [digit (a.toNat / 4), digit (a.toNat % 4 * 16), '=', '='] := rfl

theorem encode_two (a b : UInt8) :
    encode [a, b] =
      [digit (a.toNat / 4), digit (a.toNat % 4 * 16 + b.toNat / 16),
        digit (b.toNat % 16 * 4), '='] := rfl

theorem encode_group (a b c : UInt8) (rest : List UInt8) :
    encode (a :: b :: c :: rest) =
      digit (a.toNat / 4) :: digit (a.toNat % 4 * 16 + b.toNat / 16) ::
        digit (b.toNat % 16 * 4 + c.toNat / 64) :: digit (c.toNat % 64) :: encode rest := rfl

set_option maxRecDepth 2000 in
theorem value_digit : ∀ n < 64, value (digit n) = some n := by decide

set_option maxRecDepth 2000 in
theorem digit_ne_pad : ∀ n < 64, digit n ≠ '=' := by decide

/-- What a reader does with a character of the alphabet. -/
theorem decodeFrom_digit {n : Nat} (hn : n < 64) (r : Reader) (rest : List Char) :
    decodeFrom r (digit n :: rest) =
      match r.quad with
      | 0 => decodeFrom { quad := 1, left := n } rest
      | 1 =>
        (decodeFrom { quad := 2, left := n % 16 } rest).map
          (UInt8.ofNat (r.left * 4 + n / 16) :: ·)
      | 2 =>
        (decodeFrom { quad := 3, left := n % 4 } rest).map
          (UInt8.ofNat (r.left * 16 + n / 4) :: ·)
      | _ =>
        (decodeFrom { quad := 0, left := 0 } rest).map (UInt8.ofNat (r.left * 64 + n) :: ·) := by
  rw [decodeFrom, if_neg (digit_ne_pad n hn), value_digit n hn]

theorem decodeFrom_first {n : Nat} (hn : n < 64) (left pads : Nat) (rest : List Char) :
    decodeFrom ⟨0, left, pads⟩ (digit n :: rest) = decodeFrom ⟨1, n, 0⟩ rest :=
  decodeFrom_digit hn _ _

theorem decodeFrom_second {n : Nat} (hn : n < 64) (left pads : Nat) (rest : List Char) :
    decodeFrom ⟨1, left, pads⟩ (digit n :: rest) =
      (decodeFrom ⟨2, n % 16, 0⟩ rest).map (UInt8.ofNat (left * 4 + n / 16) :: ·) :=
  decodeFrom_digit hn _ _

theorem decodeFrom_third {n : Nat} (hn : n < 64) (left pads : Nat) (rest : List Char) :
    decodeFrom ⟨2, left, pads⟩ (digit n :: rest) =
      (decodeFrom ⟨3, n % 4, 0⟩ rest).map (UInt8.ofNat (left * 16 + n / 4) :: ·) :=
  decodeFrom_digit hn _ _

theorem decodeFrom_fourth {n : Nat} (hn : n < 64) (left pads : Nat) (rest : List Char) :
    decodeFrom ⟨3, left, pads⟩ (digit n :: rest) =
      (decodeFrom ⟨0, 0, 0⟩ rest).map (UInt8.ofNat (left * 64 + n) :: ·) :=
  decodeFrom_digit hn _ _

set_option maxRecDepth 2000 in
theorem digit_ascii : ∀ n < 64, (digit n).toNat < 0x80 := by decide

/-- What is written keeps to ASCII. -/
theorem encode_ascii (bytes : List UInt8) : ∀ c ∈ encode bytes, c.toNat < 0x80 := by
  induction bytes using group_induction with
  | nil => intro c hc; cases hc
  | one a =>
    have ha := a.toNat_lt
    have h₁ := digit_ascii (a.toNat / 4) (by omega)
    have h₂ := digit_ascii (a.toNat % 4 * 16) (by omega)
    simp [encode_one, h₁, h₂]
  | two a b =>
    have ha := a.toNat_lt
    have hb := b.toNat_lt
    have h₁ := digit_ascii (a.toNat / 4) (by omega)
    have h₂ := digit_ascii (a.toNat % 4 * 16 + b.toNat / 16) (by omega)
    have h₃ := digit_ascii (b.toNat % 16 * 4) (by omega)
    simp [encode_two, h₁, h₂, h₃]
  | group a b c rest ih =>
    have ha := a.toNat_lt
    have hb := b.toNat_lt
    have hc := c.toNat_lt
    have h₁ := digit_ascii (a.toNat / 4) (by omega)
    have h₂ := digit_ascii (a.toNat % 4 * 16 + b.toNat / 16) (by omega)
    have h₃ := digit_ascii (b.toNat % 16 * 4 + c.toNat / 64) (by omega)
    have h₄ := digit_ascii (c.toNat % 64) (by omega)
    simp only [encode_group, List.forall_mem_cons]
    exact ⟨h₁, h₂, h₃, h₄, ih⟩

theorem byte_eq {a : UInt8} {n : Nat} (h : n = a.toNat) : UInt8.ofNat n = a := by
  rw [h, UInt8.ofNat_toNat]

/-- A whole group gives its three bytes back. -/
theorem decodeFrom_group (a b c : UInt8) (rest : List Char) :
    decodeFrom {} (digit (a.toNat / 4) :: digit (a.toNat % 4 * 16 + b.toNat / 16) ::
      digit (b.toNat % 16 * 4 + c.toNat / 64) :: digit (c.toNat % 64) :: rest) =
    (decodeFrom {} rest).map fun bytes => a :: b :: c :: bytes := by
  have ha := a.toNat_lt
  have hb := b.toNat_lt
  have hc := c.toNat_lt
  rw [decodeFrom_first (by omega), decodeFrom_second (by omega), decodeFrom_third (by omega),
    decodeFrom_fourth (by omega), byte_eq (a := a) (by omega), byte_eq (a := b) (by omega),
    byte_eq (a := c) (by omega)]
  cases decodeFrom {} rest <;> rfl

theorem decode_encode (bytes : List UInt8) : decode (encode bytes) = some bytes := by
  induction bytes using group_induction with
  | nil => rfl
  | one a =>
    have ha := a.toNat_lt
    rw [encode_one, decode, decodeFrom_first (by omega), decodeFrom_second (by omega),
      byte_eq (a := a) (by omega)]
    rfl
  | two a b =>
    have ha := a.toNat_lt
    have hb := b.toNat_lt
    rw [encode_two, decode, decodeFrom_first (by omega), decodeFrom_second (by omega),
      decodeFrom_third (by omega), byte_eq (a := a) (by omega), byte_eq (a := b) (by omega)]
    rfl
  | group a b c rest ih =>
    rw [decode] at ih
    rw [encode_group, decode, decodeFrom_group, ih]
    rfl

end Base64
