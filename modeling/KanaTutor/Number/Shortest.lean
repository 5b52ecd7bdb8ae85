/-
The shortest decimal that reads back as a given binary64 number, written without an exponent. Among
the decimals with as few digits as possible the nearest is taken.
-/
import KanaTutor.Number.Double

namespace KanaTutor.Shortest

/-- The rationals that round to a finite positive number: those between the bounds, and the bounds
themselves if the significand is even. The lower neighbour of a power of two is half as far away. -/
structure Interval where
  low : Rat
  high : Rat
  closed : Bool

/-- The rounding interval of a finite positive number. -/
def interval (x : Float) : Interval :=
  let m := Double.significand x
  let unit := power 2 (Double.exponent x)
  let below := if m = Double.leadingBit && 1 < Double.biasedExponent x then unit / 4 else unit / 2
  ⟨m * unit - below, m * unit + unit / 2, m % 2 = 0⟩

/-- The rational rounds to the number. -/
def Interval.contains (i : Interval) (r : Rat) : Bool :=
  if i.closed then i.low ≤ r && r ≤ i.high else i.low < r && r < i.high

/-- The exponent of the leading decimal digit of a positive rational. -/
def leadingExponent (r : Rat) : Int :=
  if 1 ≤ r then (Natural.write r.floor.toNat).length - 1
  else -((Natural.write ((1 / r).ceil.toNat - 1)).length : Int)

/-- Of the two points around `r` on the grid of step `10 ^ e`, the nearer one in the interval, as a
multiple of the step; the upper one if both are as near. -/
def onGrid (i : Interval) (r : Rat) (e : Int) : Option Nat :=
  let step := power 10 e
  let below := (r / step).floor.toNat
  let above := below + 1
  match i.contains (below * step), i.contains (above * step) with
  | true, true => some (if r - below * step < above * step - r then below else above)
  | true, false => some below
  | false, true => some above
  | false, false => none

/-- A point on the first of the grids of `17 - k` digits, `18 - k` digits, … that has one in the
interval. Only on the grid of one digit can the point end in zero: it is the next power of ten. -/
def search (i : Interval) (r : Rat) (lead : Int) : Nat → Nat × Int
  | 0 => ((r / power 10 (lead - 16)).floor.toNat, lead - 16)
  | k + 1 =>
    let e := lead - (16 - k : Nat)
    match onGrid i r e with
    | some n => if n % 10 = 0 then (n / 10, e + 1) else (n, e)
    | none => search i r lead k

/-- `n · 10 ^ e` without an exponent; a whole number has no decimal point. -/
def positional (n : Nat) (e : Int) : Text :=
  let digits := Natural.write n
  match e with
  | .ofNat zeros => digits ++ List.replicate zeros '0'
  | .negSucc k =>
    let padded := Natural.padStart '0' (k + 2) digits
    padded.take (padded.length - (k + 1)) ++ '.' :: padded.drop (padded.length - (k + 1))

/-- The shortest decimal of a finite number. -/
def write (x : Float) : Text :=
  let r := Double.magnitude x
  let body :=
    if r = 0 then ['0']
    else
      let (n, e) := search (interval x) r (leadingExponent r) 17
      positional n e
  if Double.isSigned x then '-' :: body else body

end KanaTutor.Shortest
