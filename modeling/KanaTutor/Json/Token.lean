/-
The tokens of JSON text: brackets, commas and colons, and the values that are not containers. White
space between tokens is skipped.
-/
import KanaTutor.Json.Value

namespace KanaTutor

namespace Json

/-- A token. -/
inductive Token where
  | openArray
  | closeArray
  | openObject
  | closeObject
  | comma
  | colon
  | atom (v : Value)
deriving Repr

/-- The white space of JSON. -/
def isSpace (c : Char) : Bool := c = ' ' || c = '\n' || c = '\t' || c = '\r'

/-! ## Strings -/

/-- The code unit that four hexadecimal digits stand for. -/
def codeUnit? (a b c d : Char) : Option Nat := do
  let a ← Natural.hexDigit? a
  let b ← Natural.hexDigit? b
  let c ← Natural.hexDigit? c
  let d ← Natural.hexDigit? d
  some (((a * 16 + b) * 16 + c) * 16 + d)

/-- The code unit is the first half of a surrogate pair. -/
def isHighSurrogate (n : Nat) : Bool := 0xD800 ≤ n && n < 0xDC00

/-- The code unit is the second half of a surrogate pair. -/
def isLowSurrogate (n : Nat) : Bool := 0xDC00 ≤ n && n < 0xE000

/-- The character that a letter after a backslash stands for. -/
def escaped? : Char → Option Char
  | '"' => some '"'
  | '\\' => some '\\'
  | '/' => some '/'
  | 'b' => some '\x08'
  | 'f' => some '\x0C'
  | 'n' => some '\n'
  | 'r' => some '\r'
  | 't' => some '\t'
  | _ => none

/-- Four hexadecimal digits after `\u`, and what follows them. -/
def takeUnit? : Text → Option (Nat × Text)
  | '\\' :: 'u' :: a :: b :: c :: d :: rest => (codeUnit? a b c d).map (·, rest)
  | _ => none

/-- An escape at the front of a text, and what follows it. A surrogate stands only in a pair. -/
def takeEscape? (t : Text) : Option (Char × Text) :=
  match takeUnit? t with
  | some (high, rest) =>
    if isLowSurrogate high then none
    else if isHighSurrogate high then
      match takeUnit? rest with
      | some (low, after) =>
        if isLowSurrogate low then
          some (Char.ofNat (0x10000 + (high - 0xD800) * 0x400 + (low - 0xDC00)), after)
        else none
      | none => none
    else some (Char.ofNat high, rest)
  | none =>
    match t with
    | '\\' :: c :: rest => (escaped? c).map (·, rest)
    | _ => none

theorem length_of_takeUnit? {t rest : Text} {n : Nat} (h : takeUnit? t = some (n, rest)) :
    rest.length + 6 = t.length := by
  unfold takeUnit? at h
  split at h
  · simp only [Option.map_eq_some_iff, Prod.mk.injEq] at h
    obtain ⟨_, _, _, rfl⟩ := h
    rfl
  · simp at h

theorem length_lt_of_takeEscape? {t rest : Text} {c : Char} (h : takeEscape? t = some (c, rest)) :
    rest.length < t.length := by
  unfold takeEscape? at h
  split at h
  · next high after h₁ =>
    have l₁ := length_of_takeUnit? h₁
    split at h
    · simp at h
    · split at h
      · split at h
        · next h₂ =>
          have l₂ := length_of_takeUnit? h₂
          split at h
          · simp only [Option.some.injEq, Prod.mk.injEq] at h
            obtain ⟨-, rfl⟩ := h
            omega
          · simp at h
        · simp at h
      · simp only [Option.some.injEq, Prod.mk.injEq] at h
        obtain ⟨-, rfl⟩ := h
        omega
  · split at h
    · simp only [Option.map_eq_some_iff, Prod.mk.injEq] at h
      obtain ⟨_, _, _, rfl⟩ := h
      simp only [List.length_cons]
      omega
    · simp at h

/-- The rest of a string after its opening quote, and what follows the closing one. Control characters
stand only as escapes. -/
def takeString? : Text → Option (Text × Text)
  | [] => none
  | c :: rest =>
    if c = '"' then some ([], rest)
    else if c = '\\' then
      match _h : takeEscape? (c :: rest) with
      | some (e, after) => (takeString? after).map fun (t, after) => (e :: t, after)
      | none => none
    else if c.toNat < 0x20 then none
    else (takeString? rest).map fun (t, after) => (c :: t, after)
termination_by t => t.length
decreasing_by
  · exact length_lt_of_takeEscape? _h
  · simp

/-! ## Numbers -/

/-- As many leading digits as make a 64-bit word, after those that make `n`; and the digits left. -/
def takeMantissa (n : Nat) : Text → Nat × Text
  | [] => (n, [])
  | c :: rest =>
    let n' := n * 10 + Natural.digitValue c
    if n' < wordBound then takeMantissa n' rest else (n, c :: rest)

/-- The mantissa and the exponent of digits before and after the point. A digit that does not fit into
the mantissa counts for nothing, and so do the decimal places after it. -/
def mantissa (whole places : Text) : Nat × Int :=
  let (n, dropped) := takeMantissa 0 whole
  let (n', unused) := takeMantissa n places
  (n', dropped.length - (places.length - unused.length : Nat))

/-- Digits, and what follows them; there must be one. -/
def takeDigits? (t : Text) : Option (Text × Text) :=
  let digits := t.takeWhile Char.isDigit
  if digits.isEmpty then none else some (digits, t.dropWhile Char.isDigit)

/-- The decimal places after a point, or none; and what follows. -/
def takePlaces? : Text → Option (Text × Text)
  | '.' :: rest => takeDigits? rest
  | t => some ([], t)

/-- The exponent after an `e`, or zero; and what follows. -/
def takeExponent? : Text → Option (Int × Text)
  | [] => some (0, [])
  | c :: rest =>
    if c = 'e' || c = 'E' then do
      let (negative, body) := Double.takeSign rest
      let (digits, after) ← takeDigits? body
      let n := Natural.ofDigits digits
      some (if negative then -(n : Int) else n, after)
    else some (0, c :: rest)

/-- A number and what follows it. It has no zeros in front, and is no larger than the largest binary64
number. -/
def takeNumber? (t : Text) : Option (Number × Text) := do
  let (negative, body) := match t with
    | '-' :: rest => (true, rest)
    | _ => (false, t)
  let (whole, rest) ← match body with
    | '0' :: rest => some (['0'], rest)
    | _ => takeDigits? body
  let (places, rest) ← takePlaces? rest
  let (e, rest) ← takeExponent? rest
  let (n, shift) := mantissa whole places
  let number : Number := ⟨negative, n, shift + e⟩
  let _ ← number.magnitude?
  some (number, rest)

/-! ## Tokens -/

/-- A literal name or a number, and what follows it. -/
def takeAtom? (t : Text) : Option (Value × Text) :=
  match t.afterStart? "null".toList, t.afterStart? "true".toList, t.afterStart? "false".toList with
  | some rest, _, _ => some (.null, rest)
  | _, some rest, _ => some (.bool true, rest)
  | _, _, some rest => some (.bool false, rest)
  | none, none, none => (takeNumber? t).map fun (n, rest) => (.number n, rest)

/-- The token that begins a text, and what follows it. -/
def takeToken? : Text → Option (Token × Text)
  | '[' :: rest => some (.openArray, rest)
  | ']' :: rest => some (.closeArray, rest)
  | '{' :: rest => some (.openObject, rest)
  | '}' :: rest => some (.closeObject, rest)
  | ',' :: rest => some (.comma, rest)
  | ':' :: rest => some (.colon, rest)
  | '"' :: rest => (takeString? rest).map fun (t, after) => (.atom (.string t), after)
  | t => (takeAtom? t).map fun (v, rest) => (.atom v, rest)

/-- The tokens of a text. A token that did not shorten the text would end the reading. -/
def tokens? : Text → Option (List Token)
  | [] => some []
  | c :: t =>
    if isSpace c then tokens? t
    else
      match takeToken? (c :: t) with
      | none => none
      | some (token, rest) =>
        if rest.length ≤ t.length then (tokens? rest).map (token :: ·) else none
termination_by t => t.length

end Json

end KanaTutor
