/-
Binary64 numbers beside exact arithmetic: the rational value of a finite number, rounding a rational
to an integer, reading a number from decimal text, and writing a rational with a fixed number of
places.
-/
import KanaTutor.Number.Natural

namespace KanaTutor

/-! ## Powers and rounding -/

/-- A power of a positive number. -/
def power (base : Nat) : Int → Rat
  | .ofNat k => (Nat.pow base k : Nat)
  | .negSucc k => 1 / (Nat.pow base (k + 1) : Nat)

/-- The integer nearest to `r`, a half going to the even neighbour. -/
def roundHalfEven (r : Rat) : Int :=
  let n := r.floor
  let d := r - n
  if d < 1 / 2 then n else if 1 / 2 < d then n + 1 else if n % 2 = 0 then n else n + 1

namespace Double

/-- The integer nearest to a number that is not negative, a half going up. -/
def roundHalfUp (x : Float) : Float :=
  if x < 4503599627370496.0 then
    let n := x.toUInt64
    if 0.5 ≤ x - n.toFloat then (n + 1).toFloat else n.toFloat
  else x

/-! ## Exact values -/

/-- The number nearest to a 64-bit word. -/
def ofNat (n : Nat) : Float := n.toUInt64.toFloat

/-- The leading bit of the significands of most numbers, which the binary format leaves out: two to the
power of 52. -/
def leadingBit : Nat := 4503599627370496

/-- The biased exponent of the binary format. -/
def biasedExponent (x : Float) : Nat := x.toBits.toNat / leadingBit % 2048

/-- A finite number is `significand · 2 ^ exponent` in magnitude. -/
def significand (x : Float) : Nat :=
  x.toBits.toNat % leadingBit + if biasedExponent x = 0 then 0 else leadingBit

/-- A finite number is `significand · 2 ^ exponent` in magnitude. -/
def exponent (x : Float) : Int := (max 1 (biasedExponent x) : Nat) - 1075

/-- The sign bit is set. -/
def isSigned (x : Float) : Bool := signedBound ≤ x.toBits.toNat

/-- The magnitude of a finite number. -/
def magnitude (x : Float) : Rat := significand x * power 2 (exponent x)

/-! ## Reading -/

/-- The number nearest to `n · 10 ^ e`. Beyond 310 digits before the point it is infinite, below 330
zeros after the point it is zero. -/
def ofDecimal (n : Nat) (e : Int) : Float :=
  let size := (Natural.write n).length + e
  if n = 0 || size < -330 then 0.0
  else if 310 < size then 1.0 / 0.0
  else Float.ofScientific n (e < 0) e.natAbs

/-- Negates if asked to. -/
def signed (negative : Bool) (x : Float) : Float := if negative then -x else x

/-- Takes a sign off the front: whether it is a minus sign, and what follows. -/
def takeSign : Text → Bool × Text
  | '-' :: rest => (true, rest)
  | '+' :: rest => (false, rest)
  | t => (false, t)

/-- Reads an exponent: nothing at all, or `e` or `E`, a sign or none, and digits. -/
def readExponent? : Text → Option Int
  | [] => some 0
  | c :: rest =>
    if c = 'e' || c = 'E' then
      let (negative, digits) := takeSign rest
      (Natural.read? digits).map fun n => if negative then -(n : Int) else n
    else none

/-- Reads digits with a decimal point among or around them or none, and an exponent. -/
def readUnsigned? (t : Text) : Option Float :=
  let whole := t.takeWhile Char.isDigit
  let rest := t.dropWhile Char.isDigit
  let places := match rest with
    | '.' :: r => r.takeWhile Char.isDigit
    | _ => []
  let rest := match rest with
    | '.' :: r => r.dropWhile Char.isDigit
    | r => r
  if whole.isEmpty && places.isEmpty then none
  else (readExponent? rest).map fun e => ofDecimal (Natural.ofDigits (whole ++ places)) (e - places.length)

/-- Reads a number: a sign or none, then digits, or a name of infinity, or `nan`, in either case. -/
def read? (t : Text) : Option Float :=
  let (negative, body) := takeSign t
  let name := body.map Char.toLower
  if name = "inf".toList || name = "infinity".toList then some (signed negative (1.0 / 0.0))
  else if name = "nan".toList then some (0.0 / 0.0)
  else (readUnsigned? body).map (signed negative)

end Double

/-! ## Writing -/

/-- A rational that is not negative, rounded to `places` decimal places; a half goes to the even
neighbour. -/
def writeFixed (places : Nat) (r : Rat) : Text :=
  let n := (roundHalfEven (r * power 10 places)).toNat
  let unit := Nat.pow 10 places
  let whole := Natural.write (n / unit)
  if places = 0 then whole else whole ++ '.' :: Natural.writePadded places (n % unit)

end KanaTutor
