/-
Points of the calendar: a date, a second of the day, and nanoseconds. In a leap second the nanoseconds
go on beyond a second. Timestamps are read and written to the second.
-/
import KanaTutor.Text.Blank
import KanaTutor.Time.Date

namespace KanaTutor

/-- A timestamp. -/
structure Timestamp where
  date : Date
  second : Nat
  nano : Nat
  second_lt : second < 86400
  nano_lt : nano < 2000000000
deriving DecidableEq

namespace Timestamp

/-! ## Order and age -/

/-- The timestamp comes before another one. -/
def before (s t : Timestamp) : Bool :=
  s.date.before t.date ||
    (s.date = t.date && (s.second < t.second || (s.second = t.second && s.nano < t.nano)))

/-- The later of two timestamps. -/
def later (s t : Timestamp) : Timestamp := if s.before t then t else s

/-- The timestamp at its whole second; a leap second becomes the one before it. -/
def toWholeSecond (t : Timestamp) : Timestamp := { t with nano := 0, nano_lt := by decide }

/-- The timestamp with other nanoseconds. -/
def withNano? (t : Timestamp) (nano : Nat) : Option Timestamp :=
  if h : nano < 2000000000 then some { t with nano, nano_lt := h } else none

/-- The nanoseconds from one timestamp to another. A leap second counts as a second of its own if the
other timestamp has a later second of the day than the one that is in it. -/
def nanosSince (t earlier : Timestamp) : Int :=
  let leap : Int :=
    if earlier.second < t.second then (if 1000000000 ≤ earlier.nano then 1 else 0)
    else if t.second < earlier.second then (if 1000000000 ≤ t.nano then -1 else 0)
    else 0
  let seconds := (t.date.dayNumber - earlier.date.dayNumber) * 86400 + (t.second - earlier.second) + leap
  seconds * 1000000000 + (t.nano - earlier.nano)

/-- At least so many days have passed from one timestamp to another. -/
def isOlderThan (t : Timestamp) (days : Nat) (now : Timestamp) : Bool :=
  (days : Int) * 86400 * 1000000000 ≤ now.nanosSince t

/-! ## Writing -/

/-- A timestamp as date and time of day; a leap second is the sixtieth. -/
def write (t : Timestamp) : Text :=
  t.date.write ++ ' ' :: Natural.writePadded 2 (t.second / 3600) ++
    ':' :: Natural.writePadded 2 (t.second / 60 % 60) ++
    ':' :: Natural.writePadded 2 (t.second % 60 + t.nano / 1000000000)

/-! ## Reading -/

/-- Takes digits off the front, at most `limit` of them; there must be one. -/
def takeDigits? (limit : Nat) (t : Text) : Option (Nat × Text) :=
  let digits := (t.takeWhile Char.isDigit).take limit
  if digits.isEmpty then none else some (Natural.ofDigits digits, t.drop digits.length)

/-- Takes a number of one or two digits off the front, after any white space. -/
def takeTwoDigits? (t : Text) : Option (Nat × Text) := takeDigits? 2 t.trimStart

/-- Takes a year off the front, after any white space: up to four digits, or any number after a sign. -/
def takeYear? (t : Text) : Option (Int × Text) :=
  match t.trimStart with
  | '-' :: rest => (takeDigits? rest.length rest).map fun (n, after) => (-(n : Int), after)
  | '+' :: rest => (takeDigits? rest.length rest).map fun (n, after) => ((n : Int), after)
  | t => (takeDigits? 4 t).map fun (n, after) => ((n : Int), after)

/-- Takes a character off the front. -/
def takeChar? (c : Char) (t : Text) : Option Text := t.afterStart? [c]

/-- The timestamp with the given date and time of day. Any minute may have a sixtieth second. -/
def of? (date : Date) (hour minute second : Nat) : Option Timestamp :=
  if h : hour ≤ 23 ∧ minute ≤ 59 ∧ second ≤ 60 then
    some {
      date
      second := hour * 3600 + minute * 60 + min second 59
      nano := if second = 60 then 1000000000 else 0
      second_lt := by omega
      nano_lt := by split <;> decide }
  else none

/-- Reads a timestamp as date and time of day. White space may stand before every number, and where the
time follows the date there may be none. -/
def read? (t : Text) : Option Timestamp := do
  let (year, t) ← takeYear? t
  let t ← takeChar? '-' t
  let (month, t) ← takeTwoDigits? t
  let t ← takeChar? '-' t
  let (day, t) ← takeTwoDigits? t
  let (hour, t) ← takeTwoDigits? t
  let t ← takeChar? ':' t
  let (minute, t) ← takeTwoDigits? t
  let t ← takeChar? ':' t
  let (second, t) ← takeTwoDigits? t
  let date ← Date.of? year month day
  if t.isEmpty then of? date hour minute second else none

end Timestamp

end KanaTutor
