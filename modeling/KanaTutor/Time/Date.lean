/-
Dates of the Gregorian calendar, extended to years before its introduction and to the year zero, from
2 ^ 18 - 1 years before the year zero to 2 ^ 18 - 2 years after it.
-/
import KanaTutor.Number.Natural

namespace KanaTutor

namespace Date

/-- The year has a 29th of February. -/
def isLeapYear (year : Int) : Bool := year % 4 = 0 && (year % 100 ≠ 0 || year % 400 = 0)

/-- The number of days in a month; none if there is no such month. -/
def daysIn (year : Int) : Nat → Nat
  | 2 => if isLeapYear year then 29 else 28
  | 4 | 6 | 9 | 11 => 30
  | 1 | 3 | 5 | 7 | 8 | 10 | 12 => 31
  | _ => 0

/-- The numbers make a date. -/
def isValid (year : Int) (month day : Nat) : Bool :=
  -262143 ≤ year && year ≤ 262142 && 1 ≤ day && day ≤ daysIn year month

end Date

/-- A date. -/
structure Date where
  year : Int
  month : Nat
  day : Nat
  valid : Date.isValid year month day = true
deriving DecidableEq

namespace Date

/-- The date with the given numbers, if there is one. -/
def of? (year : Int) (month day : Nat) : Option Date :=
  if h : isValid year month day then some ⟨year, month, day, h⟩ else none

/-- The days from the first of March of the year zero. The year is taken to begin in March, so that a
leap day comes last in it. -/
def dayNumber (d : Date) : Int :=
  let year := if d.month ≤ 2 then d.year - 1 else d.year
  let month := if d.month ≤ 2 then d.month + 9 else d.month - 3
  365 * year + year / 4 - year / 100 + year / 400 + (153 * month + 2) / 5 + d.day - 1

/-- The date comes before another one. -/
def before (d e : Date) : Bool :=
  d.year < e.year || (d.year = e.year && (d.month < e.month || (d.month = e.month && d.day < e.day)))

/-- A year in at least four digits; a sign tells the years before zero and those of more digits. -/
def writeYear (year : Int) : Text :=
  match year with
  | .ofNat n => (if 10000 ≤ n then ['+'] else []) ++ Natural.writePadded 4 n
  | .negSucc n => '-' :: Natural.writePadded 4 (n + 1)

/-- A date as year, month and day with hyphens between them. -/
def write (d : Date) : Text :=
  writeYear d.year ++ '-' :: Natural.writePadded 2 d.month ++ '-' :: Natural.writePadded 2 d.day

end Date

end KanaTutor
