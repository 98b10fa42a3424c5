import AgentsRemember.Foundation.Base64
import AgentsRemember.Foundation.JsonAscii
import Mathlib.Data.List.Sort
import Mathlib.Order.Lattice

/-!
# River — Cursor

The resume position of the whole stream: an offset for each source, carried as
one opaque text. A client hands back what it was given, so what matters is
that a cursor reads back to the offsets it was made of (`at_decode_encode`).
What was given is a text of the JSON grammar; what else a reader takes for one
does not matter here.
-/

namespace AgentsRemember.River

/-- Offsets by source. -/
structure Offsets where
  entries : List (String × Nat) := []
  nodup : (entries.map Prod.fst).Nodup := by simp

/-- A source without an offset is read from its start. -/
def Offsets.at (offsets : Offsets) (source : String) : Nat :=
  (offsets.entries.lookup source).getD 0

/-- The offset of a source, replaced. -/
def Offsets.set (offsets : Offsets) (source : String) (offset : Nat) : Offsets where
  entries := Keyed.set offsets.entries source offset
  nodup := Keyed.nodup_keys_set offsets.nodup _ _

@[simp] theorem Offsets.at_set (offsets : Offsets) (source : String) (offset : Nat) :
    (offsets.set source offset).at source = offset := by
  simp [Offsets.at, Offsets.set, Keyed.lookup_set]

theorem Offsets.at_set_of_ne (offsets : Offsets) {source other : String} (h : other ≠ source)
    (offset : Nat) : (offsets.set source offset).at other = offsets.at other := by
  simp [Offsets.at, Offsets.set, Keyed.lookup_set, Ne.symm h]

/-- One newline-free text for the offsets, by sorted source. -/
def encodeCursor (offsets : Offsets) : String :=
  let raw := String.ofList
    (Json.renderCounts (offsets.entries.insertionSort fun a b => a.1 ≤ b.1))
  String.ofList (Base64.encode raw.toUTF8.data.toList)

/-- The offset that a member of a cursor's object gives, if it gives one. -/
def cursorEntry : String × Json → Option (String × Nat)
  | (key, .num n) => n.toNat?.map (key, ·)
  | _ => none

/-- The object a cursor is the text of: none for what is not ASCII, not base64,
or not the text of an object. -/
def cursorObject (cursor : String) : Option (List (String × Json)) :=
  if cursor.toList.all (·.toNat < 0x80) then
    (Base64.decode cursor.toList).bind fun raw =>
      (String.fromUTF8? ⟨raw.toArray⟩).bind fun text =>
        match Json.parse text.toList with
        | some (.obj members) => some members
        | _ => none
  else none

/-- The offsets of a cursor; none where there is no cursor or garbage. -/
def decodeCursor (cursor : Option String) : Offsets where
  entries := Keyed.dict (((cursor.bind cursorObject).getD []).filterMap cursorEntry)
  nodup := Keyed.nodup_keys_dict _

/-! ## The round trip -/

theorem fromUTF8?_toUTF8 (s : String) : String.fromUTF8? s.toUTF8 = some s :=
  dif_pos s.isValidUTF8

theorem cursorObject_encode (offsets : Offsets) : cursorObject (encodeCursor offsets) =
    some ((offsets.entries.insertionSort fun a b => a.1 ≤ b.1).map Json.countMember) := by
  have hsorted : ((offsets.entries.insertionSort fun a b => a.1 ≤ b.1).map Prod.fst).Nodup :=
    ((List.perm_insertionSort _ _).map _).nodup_iff.mpr offsets.nodup
  have hascii : (encodeCursor offsets).toList.all (·.toNat < 0x80) = true := by
    rw [List.all_eq_true]
    intro c hc
    simp only [encodeCursor, String.toList_ofList] at hc
    simpa using Base64.encode_ascii _ c hc
  unfold cursorObject
  rw [if_pos hascii]
  simp only [encodeCursor, String.toList_ofList, Base64.decode_encode, Option.bind_some,
    Array.toArray_toList]
  rw [fromUTF8?_toUTF8, Option.bind_some, String.toList_ofList, Json.parse_renderCounts hsorted]

theorem filterMap_countMember (entries : List (String × Nat)) :
    (entries.map Json.countMember).filterMap cursorEntry = entries := by
  induction entries with
  | nil => rfl
  | cons e entries ih =>
    rw [List.map_cons, List.filterMap_cons, ih]
    simp [Json.countMember, cursorEntry, Json.Number.toNat?_ofNat]

/-- A cursor reads back to the offsets it was made of. -/
theorem at_decode_encode (offsets : Offsets) (source : String) :
    (decodeCursor (some (encodeCursor offsets))).at source = offsets.at source := by
  have hperm := List.perm_insertionSort (fun a b : String × Nat => a.1 ≤ b.1) offsets.entries
  have hsorted : ((offsets.entries.insertionSort fun a b => a.1 ≤ b.1).map Prod.fst).Nodup :=
    (hperm.map _).nodup_iff.mpr offsets.nodup
  simp only [Offsets.at, decodeCursor, Option.bind_some, cursorObject_encode, Option.getD_some,
    filterMap_countMember, Keyed.dict_of_nodup hsorted]
  rw [Keyed.lookup_perm hsorted hperm]

end AgentsRemember.River
