/-
Character width and the two kana scripts: the full-width forms of the printable ASCII characters, the
space and the yen sign, and the hiragana of katakana.
-/
import KanaTutor.Text.Basic

namespace KanaTutor

namespace Width

/-- The half-width counterpart of a full-width character. -/
def half? (c : Char) : Option Char :=
  if '\uFF01' ≤ c ∧ c ≤ '\uFF5E' then some (Char.ofNat (c.toNat - 0xFEE0))
  else if c = '\u3000' then some ' '
  else if c = '￥' then some '¥'
  else none

/-- The full-width counterpart of a printable ASCII character, a space or a yen sign. -/
def full? (c : Char) : Option Char :=
  if '!' ≤ c ∧ c ≤ '~' then some (Char.ofNat (c.toNat + 0xFEE0))
  else if c = ' ' then some '\u3000'
  else if c = '¥' then some '￥'
  else none

/-- The half-width form of a character, or the character itself. -/
def half (c : Char) : Char := (half? c).getD c

/-- The full-width form of a character, or the character itself. -/
def full (c : Char) : Char := (full? c).getD c

end Width

/-- The hiragana of a katakana, or the character itself. Katakana are the characters from small a to
small ke and the two iteration marks; the middle dot and the long-vowel mark belong to both scripts. -/
def hiragana (c : Char) : Char :=
  if ('\u30A1' ≤ c ∧ c ≤ '\u30F6') ∨ c = '\u30FD' ∨ c = '\u30FE' then Char.ofNat (c.toNat - 0x60) else c

namespace Text

/-- The text with half-width forms. -/
def hankaku (t : Text) : Text := t.map Width.half

/-- The text with full-width forms. -/
def zenkaku (t : Text) : Text := t.map Width.full

/-- The text with hiragana for katakana. -/
def hiragana (t : Text) : Text := t.map KanaTutor.hiragana

end Text

end KanaTutor
