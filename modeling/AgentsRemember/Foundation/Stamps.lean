import Mathlib.Data.List.Basic

/-!
# Foundation — Stamps

Points in time as they are written: a stamp with an offset names an instant, one
without does not. Instants are counted in microseconds from the first of January
1970. `readExtended` reads the extended form with seconds and a numeric offset,
`YYYY-MM-DDThh:mm:ss±hh:mm`.
-/

namespace Stamps

/-- What a stamp says: an instant, or a wall clock time that names none. -/
inductive Stamp where
  | aware (instant : Int)
  | naive (wallClock : Int)
  deriving DecidableEq

/-- Microseconds. -/
def second : Int := 1000000

/-- Days from the first of January 1970 to a date of the Gregorian calendar. -/
def daysFromCivil (year month day : Int) : Int :=
  let y := if month ≤ 2 then year - 1 else year
  let era := y / 400
  let yearOfEra := y - era * 400
  let dayOfYear := (153 * (if 2 < month then month - 3 else month + 9) + 2) / 5 + day - 1
  era * 146097 + yearOfEra * 365 + yearOfEra / 4 - yearOfEra / 100 + dayOfYear - 719468

/-- The value of a digit. -/
def digit (c : Char) : Option Int :=
  if '0' ≤ c ∧ c ≤ '9' then some (c.toNat - '0'.toNat : Nat) else none

/-- The value of some digits. -/
def digits (cs : List Char) : Option Int :=
  cs.foldl (fun n c => n.bind fun n => (digit c).map (n * 10 + ·)) (some 0)

/-- The instant of a stamp in the extended form with seconds and an offset. -/
def readExtended (stamp : String) : Option Stamp :=
  let cs := stamp.toList
  let field (start length : Nat) := digits ((cs.drop start).take length)
  let sign := cs.getD 19 ' '
  if cs.length = 25 ∧ cs.getD 4 ' ' = '-' ∧ cs.getD 7 ' ' = '-' ∧ cs.getD 10 ' ' = 'T' ∧
      cs.getD 13 ' ' = ':' ∧ cs.getD 16 ' ' = ':' ∧ (sign = '+' ∨ sign = '-') ∧
      cs.getD 22 ' ' = ':' then do
    let days := daysFromCivil (← field 0 4) (← field 5 2) (← field 8 2)
    let seconds := (← field 11 2) * 3600 + (← field 14 2) * 60 + (← field 17 2)
    let offset := (← field 20 2) * 3600 + (← field 23 2) * 60
    return .aware ((days * 86400 + seconds - (if sign = '-' then -offset else offset)) * second)
  else none

example : readExtended "1970-01-02T01:00:00+01:00" = some (.aware (86400 * second)) := by decide

end Stamps
