/-
Lower case of a text. Every character is mapped by itself, except that a capital sigma at the end of
a word becomes a final sigma: one that follows a cased character and precedes none, characters that
casing ignores aside.
-/
import KanaTutor.Text.Basic
import KanaTutor.Text.Lowercase.Table

namespace KanaTutor

namespace Lowercase

/-- The code point lies in one of the ranges. -/
def within (ranges : Array (Nat × Nat)) (n : Nat) : Bool :=
  ranges.any fun (first, last) => first ≤ n && n ≤ last

/-- Casing ignores the character. -/
def isIgnorable (c : Char) : Bool := within ignorableRanges c.toNat

/-- The character has a case, and casing does not ignore it. -/
def isCased (c : Char) : Bool := within casedRanges c.toNat

/-- The nearest character that casing does not ignore has a case. -/
def meetsCased (t : Text) : Bool := (t.dropWhile isIgnorable).head?.any isCased

/-- Lower case of a character by itself. -/
def ofChar (c : Char) : Text :=
  let n := c.toNat
  if n < 0x80 then [c.toLower]
  else if n = 0x130 then ['i', '\u0307']
  else
    match runs.find? fun r => r.first ≤ n && n ≤ r.last && (n - r.first) % r.step = 0 with
    | some r => [Char.ofNat (r.lower + (n - r.first))]
    | none => [c]

/-- Lower case of a text; `before` holds the characters before it, nearest first. -/
def ofText (before : Text) : Text → Text
  | [] => []
  | c :: rest =>
    let lower := if c = 'Σ' then (if meetsCased before && !meetsCased rest then ['ς'] else ['σ']) else ofChar c
    lower ++ ofText (c :: before) rest

end Lowercase

/-- Lower case of a text. -/
def Text.lowercase (t : Text) : Text := Lowercase.ofText [] t

end KanaTutor
