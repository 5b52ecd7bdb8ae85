/-
The strings, numbers and date-times of TOML. Each reader takes a value off the front of a text and
gives what follows it.
-/
import KanaTutor.Number.Double
import KanaTutor.Time.Date
import KanaTutor.Toml.Value

namespace KanaTutor

namespace Toml

/-- White space within a line. -/
def isSpace (c : Char) : Bool := c = ' ' || c = '\t'

/-- The character may stand in a string or a comment. -/
def isPrintable (c : Char) : Bool := c = '\t' || (0x20 ≤ c.toNat && c.toNat ≠ 0x7F)

/-- The text without the spaces it begins with. -/
def skipSpace (t : Text) : Text := t.dropWhile isSpace

/-- Takes a line break off the front: what follows it. -/
def takeBreak? : Text → Option Text
  | '\n' :: rest => some rest
  | '\r' :: '\n' :: rest => some rest
  | _ => none

/-- Takes a character off the front: what follows it. -/
def takeChar? (c : Char) (t : Text) : Option Text := t.afterStart? [c]

/-! ## Strings -/

/-- Takes so many hexadecimal digits off the front, after those that make `n`. -/
def takeHex? (n : Nat) : Nat → Text → Option (Nat × Text)
  | 0, t => some (n, t)
  | k + 1, c :: rest => (Natural.hexDigit? c).bind fun d => takeHex? (n * 16 + d) k rest
  | _ + 1, [] => none

/-- The character with a code point that is no surrogate. -/
def scalar? (n : Nat) : Option Char := if n.isValidChar then some (Char.ofNat n) else none

/-- Takes an escape off the front, after its backslash. -/
def takeEscape? : Text → Option (Char × Text)
  | 'b' :: rest => some ('\x08', rest)
  | 't' :: rest => some ('\t', rest)
  | 'n' :: rest => some ('\n', rest)
  | 'f' :: rest => some ('\x0C', rest)
  | 'r' :: rest => some ('\r', rest)
  | '"' :: rest => some ('"', rest)
  | '\\' :: rest => some ('\\', rest)
  | 'u' :: rest => (takeHex? 0 4 rest).bind fun (n, after) => (scalar? n).map (·, after)
  | 'U' :: rest => (takeHex? 0 8 rest).bind fun (n, after) => (scalar? n).map (·, after)
  | _ => none

/-- Takes the rest of a string on one line off the front, up to its closing quote. Only in double quotes
there are escapes. -/
def takeLine? (quote : Char) : Text → Option (Text × Text)
  | [] => none
  | c :: rest =>
    if c = quote then some ([], rest)
    else if c = '\\' && quote = '"' then
      match takeEscape? rest with
      | none => none
      | some (e, after) =>
        if after.length ≤ rest.length then (takeLine? quote after).map fun (t, after) => (e :: t, after)
        else none
    else if isPrintable c then (takeLine? quote rest).map fun (t, after) => (c :: t, after)
    else none
termination_by t => t.length

/-- The text without the spaces and line breaks it begins with. -/
def skipBreaks : Text → Text
  | [] => []
  | '\r' :: '\n' :: rest => skipBreaks rest
  | c :: rest => if isSpace c || c = '\n' then skipBreaks rest else c :: rest

/-- What follows a backslash at the end of a line: the next character that is no white space. -/
def takeContinuation? (t : Text) : Option Text := (takeBreak? (skipSpace t)).map skipBreaks

/-- Takes the rest of a string on several lines off the front, up to its three closing quotes; one or two
more may stand before them. Only in double quotes there are escapes. -/
def takeLines? (quote : Char) : Text → Option (Text × Text)
  | [] => none
  | c :: rest =>
    if c = quote then
      let quotes := rest.takeWhile (· = quote)
      if 5 ≤ quotes.length then none
      else if 2 ≤ quotes.length then some (quotes.drop 2, rest.drop quotes.length)
      else (takeLines? quote (rest.drop quotes.length)).map fun (t, after) => (c :: quotes ++ t, after)
    else if c = '\\' && quote = '"' then
      match takeContinuation? rest, takeEscape? rest with
      | some after, _ => if after.length ≤ rest.length then takeLines? quote after else none
      | none, some (e, after) =>
        if after.length ≤ rest.length then (takeLines? quote after).map fun (t, after) => (e :: t, after)
        else none
      | none, none => none
    else if c = '\r' then
      match rest with
      | '\n' :: after => (takeLines? quote after).map fun (t, after) => ('\n' :: t, after)
      | _ => none
    else if c = '\n' || isPrintable c then (takeLines? quote rest).map fun (t, after) => (c :: t, after)
    else none
termination_by t => t.length
decreasing_by all_goals (simp only [List.length_cons, List.length_drop] at *; omega)

/-- Takes a string off the front, after its first quote. A line break right after three quotes is no part
of the string. -/
def takeString? (quote : Char) (t : Text) : Option (Text × Text) :=
  match t.afterStart? [quote, quote] with
  | some rest => takeLines? quote ((takeBreak? rest).getD rest)
  | none => takeLine? quote t

/-! ## Numbers -/

/-- Takes digits off the front, single underscores between them; there must be one. -/
def takeDigits? (isDigit : Char → Bool) : Text → Option (Text × Text)
  | [] => none
  | c :: rest =>
    if isDigit c then
      match takeDigits? isDigit rest with
      | some (digits, after) => some (c :: digits, after)
      | none =>
        match rest with
        | '_' :: after =>
          match takeDigits? isDigit after with
          | some (digits, after) => some (c :: digits, after)
          | none => some ([c], rest)
        | _ => some ([c], rest)
    else none

/-- Takes a whole number off the front: it has no zeros before its digits. -/
def takeWhole? : Text → Option (Text × Text)
  | '0' :: rest => some (['0'], rest)
  | t => takeDigits? Char.isDigit t

/-- An integer, if it fits into a signed 64-bit word. -/
def integer? (negative : Bool) (n : Nat) : Option Value :=
  if n < signedBound || (negative && n = signedBound) then some (.integer (if negative then -(n : Int) else n)) else none

/-- Takes the digits of an integer with the given base off the front. -/
def takeRadix? (base : Nat) (t : Text) : Option (Value × Text) := do
  let isDigit := fun c => (Natural.hexDigit? c).any (· < base)
  let (digits, rest) ← takeDigits? isDigit t
  let v ← integer? false (digits.foldl (fun n c => n * base + (Natural.hexDigit? c).getD 0) 0)
  some (v, rest)

/-- Takes the exponent of a number off the front: `e` or `E`, a sign or none, and digits. -/
def takeExponent? : Text → Option (Text × Text)
  | c :: rest =>
    if c = 'e' || c = 'E' then
      let (negative, body) := Double.takeSign rest
      (takeDigits? Char.isDigit body).map fun (digits, after) =>
        ((if negative then ['e', '-'] else ['e']) ++ digits, after)
    else none
  | [] => none

/-- Takes the decimal places of a number off the front: a point and digits. -/
def takePlaces? : Text → Option (Text × Text)
  | '.' :: rest => (takeDigits? Char.isDigit rest).map fun (digits, after) => ('.' :: digits, after)
  | _ => none

/-- What is left of a number after its whole part, if it is no integer: decimal places, an exponent, or
both. -/
def takeFraction? (t : Text) : Option (Text × Text) :=
  match takePlaces? t with
  | none => takeExponent? t
  | some (places, rest) =>
    match takeExponent? rest with
    | some (e, rest) => some (places ++ e, rest)
    | none => some (places, rest)

/-- Takes a decimal number off the front, after its sign. A number that is too large is refused, but one
that is too small is infinite. -/
def takeDecimal? (negative : Bool) (t : Text) : Option (Value × Text) := do
  let (whole, rest) ← takeWhole? t
  match takeFraction? rest with
  | none => (integer? negative (Natural.ofDigits whole)).map (·, rest)
  | some (fraction, rest) =>
    let x ← Double.read? (whole ++ fraction)
    if !negative && x == 1.0 / 0.0 then none else some (.float (Double.signed negative x), rest)

/-- Takes a number off the front. -/
def takeNumber? (t : Text) : Option (Value × Text) :=
  match t with
  | '0' :: 'x' :: rest => takeRadix? 16 rest
  | '0' :: 'o' :: rest => takeRadix? 8 rest
  | '0' :: 'b' :: rest => takeRadix? 2 rest
  | t =>
    let (negative, body) := Double.takeSign t
    match body.afterStart? "inf".toList, body.afterStart? "nan".toList with
    | some rest, _ => some (.float (Double.signed negative (1.0 / 0.0)), rest)
    | _, some rest => some (.float (0.0 / 0.0), rest)
    | none, none => takeDecimal? negative body

/-! ## Dates and times -/

/-- Takes a number of so many digits off the front; it is in a range. -/
def takeField? (width low high : Nat) (t : Text) : Option (Nat × Text) :=
  let digits := t.take width
  let n := Natural.ofDigits digits
  if digits.length = width && digits.all Char.isDigit && low ≤ n && n ≤ high then some (n, t.drop width) else none

/-- Takes a date off the front. -/
def takeDate? (t : Text) : Option Text := do
  let (year, t) ← takeField? 4 0 9999 t
  let t ← takeChar? '-' t
  let (month, t) ← takeField? 2 1 12 t
  let t ← takeChar? '-' t
  let (_, t) ← takeField? 2 1 (Date.daysIn year month) t
  some t

/-- Takes the decimal places of a second off the front, if there are any. -/
def skipPlaces (t : Text) : Text :=
  match t with
  | '.' :: rest => if rest.head?.any Char.isDigit then rest.dropWhile Char.isDigit else t
  | _ => t

/-- Takes a time of day off the front. -/
def takeTime? (t : Text) : Option Text := do
  let (_, t) ← takeField? 2 0 23 t
  let t ← takeChar? ':' t
  let (_, t) ← takeField? 2 0 59 t
  let t ← takeChar? ':' t
  let (_, t) ← takeField? 2 0 60 t
  some (skipPlaces t)

/-- Takes an offset from universal time off the front, after its sign. -/
def takeOffset? (t : Text) : Option Text := do
  let (_, t) ← takeField? 2 0 23 t
  let t ← takeChar? ':' t
  let (_, t) ← takeField? 2 0 59 t
  some t

/-- Takes an offset from universal time off the front, if there is one. -/
def skipOffset : Text → Text
  | [] => []
  | c :: rest =>
    if c = 'Z' || c = 'z' then rest
    else if c = '+' || c = '-' then (takeOffset? rest).getD (c :: rest)
    else c :: rest

/-- Takes a date, a time of day, or both off the front. -/
def takeDateTime? (t : Text) : Option Text :=
  match takeDate? t with
  | none => takeTime? t
  | some [] => some []
  | some (c :: rest) =>
    if c = 'T' || c = 't' || c = ' ' then ((takeTime? rest).map skipOffset).getD (c :: rest) else c :: rest

end Toml

end KanaTutor
