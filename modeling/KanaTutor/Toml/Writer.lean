/-
Writing TOML values: strings in the quotes that need the fewest escapes, and numbers so that they read
back as what they are.
-/
import KanaTutor.Number.Shortest
import KanaTutor.Toml.Value

namespace KanaTutor

namespace Toml

/-! ## Strings -/

/-- The length of the longest run of a character. -/
def longestRun (c : Char) (t : Text) : Nat :=
  (t.foldl (fun (longest, run) x =>
    let run := if x = c then run + 1 else 0
    (max longest run, run)) (0, 0)).1

/-- The character can stand in a string only as an escape. -/
def needsEscape (c : Char) : Bool := (c.toNat < 0x20 && c ≠ '\t' && c ≠ '\n') || c.toNat = 0x7F

/-- The quotes of a string: double or single, one or three of them. -/
structure Quotes where
  double : Bool
  triple : Bool
deriving DecidableEq, Repr

/-- The string can be written in such quotes without any escape but that of a tab. -/
def Quotes.suit (q : Quotes) (t : Text) : Bool :=
  !t.any needsEscape && (q.triple || !t.contains '\n') && !(q.double && t.contains '\\') &&
    longestRun (if q.double then '"' else '\'') t ≤ if q.triple then 2 else 0

/-- The quotes for a string: the first that suit it. If none do, it is written with escapes, on several
lines if it has several. -/
def quotesFor (t : Text) : Quotes :=
  ([⟨true, false⟩, ⟨false, false⟩, ⟨true, true⟩, ⟨false, true⟩].find? fun q : Quotes => q.suit t).getD
    ⟨true, t.contains '\n'⟩

/-- A hexadecimal digit in upper case. -/
def hexDigit (n : Nat) : Char := if n < 10 then Char.ofNat (48 + n) else Char.ofNat (55 + n)

/-- A character of a string in double quotes, as it is written. -/
def escape (triple : Bool) (c : Char) : Text :=
  if c = '\x08' then ['\\', 'b']
  else if c = '\t' then ['\\', 't']
  else if c = '\n' && !triple then ['\\', 'n']
  else if c = '\x0C' then ['\\', 'f']
  else if c = '\r' then ['\\', 'r']
  else if c = '\\' then ['\\', '\\']
  else if needsEscape c then "\\u00".toList ++ [hexDigit (c.toNat / 16), hexDigit (c.toNat % 16)]
  else [c]

/-- The inside of a string in double quotes, after `run` of them. A quote is escaped where it would make
the quotes in a row too many. -/
def escapeAll (triple : Bool) (run : Nat) : Text → Text
  | [] => []
  | c :: rest =>
    if c = '"' then
      if run < (if triple then 2 else 0) then c :: escapeAll triple (run + 1) rest
      else '\\' :: c :: escapeAll triple 0 rest
    else escape triple c ++ escapeAll triple 0 rest

/-- A string. -/
def writeString (t : Text) : Text :=
  let q := quotesFor t
  let quotes := List.replicate (if q.triple then 3 else 1) (if q.double then '"' else '\'')
  let start := if q.triple && t.contains '\n' then ['\n'] else []
  quotes ++ start ++ (if q.double then escapeAll q.triple 0 t else t) ++ quotes

/-! ## Numbers -/

/-- A number with a decimal point, or the name of one that is not finite. -/
def writeFloat (x : Float) : Text :=
  let sign := if Double.isSigned x then ['-'] else []
  if x.isNaN then sign ++ "nan".toList
  else if x.isInf then sign ++ "inf".toList
  else
    let digits := Shortest.write x
    if digits.contains '.' then digits else digits ++ ['.', '0']

/-- An integer that fits into a signed 64-bit word. -/
def writeWord? (n : Nat) : Option Text := if n < signedBound then some (Natural.write n) else none

/-- A truth value. -/
def writeBoolean (b : Bool) : Text := if b then "true".toList else "false".toList

/-- A line that gives a key a value. -/
def writePair (key : String) (v : Text) : Text := key.toList ++ " = ".toList ++ v ++ ['\n']

end Toml

end KanaTutor
