/-
Natural numbers in decimal: writing them, padded or not, and reading a 64-bit word.
-/
import KanaTutor.Text.Basic

namespace KanaTutor

/-- The bound of 64-bit words: two to the power of 64. -/
def wordBound : Nat := 18446744073709551616

/-- The bound of signed 64-bit words: two to the power of 63. -/
def signedBound : Nat := 9223372036854775808

namespace Natural

/-- The decimal digits of a number. -/
def write (n : Nat) : Text := Nat.toDigits 10 n

/-- The text filled up to `width` characters with `fill` in front. -/
def padStart (fill : Char) (width : Nat) (t : Text) : Text := List.replicate (width - t.length) fill ++ t

/-- The decimal digits of a number, at least `width` of them. -/
def writePadded (width n : Nat) : Text := padStart '0' width (write n)

/-- The value of an ASCII digit. -/
def digitValue (c : Char) : Nat := c.toNat - '0'.toNat

/-- The value of a hexadecimal digit. -/
def hexDigit? (c : Char) : Option Nat :=
  if c.isDigit then some (c.toNat - '0'.toNat)
  else if 'a' ≤ c ∧ c ≤ 'f' then some (c.toNat - 'a'.toNat + 10)
  else if 'A' ≤ c ∧ c ≤ 'F' then some (c.toNat - 'A'.toNat + 10)
  else none

/-- The number that a row of digits stands for. -/
def ofDigits (digits : Text) : Nat := digits.foldl (fun n c => n * 10 + digitValue c) 0

/-- Reads a row of digits that is not empty. -/
def read? (t : Text) : Option Nat :=
  if !t.isEmpty && t.all Char.isDigit then some (ofDigits t) else none

/-- Reads a 64-bit word: digits, with a plus sign before them or not. -/
def readWord? (t : Text) : Option Nat := do
  let n ← read? ((t.afterStart? ['+']).getD t)
  if n < wordBound then some n else none

end Natural

end KanaTutor
