/-
The symbols on keys that are more than the character they type, and the words that explain them.
-/
import KanaTutor.Kana.Romaji

namespace KanaTutor

namespace Legend

/-- The backspace key. -/
def backspace : Char := '⌫'

/-- A shift key, or a space bar that shifts the key after it. -/
def shift : Char := '⇧'

/-- The space bar of a kana keyboard. -/
def kanaSpace : Char := '\u3000'

/-- The voicing mark, typed after its kana. -/
def dakuten : Char := '゛'

/-- The half-voicing mark, typed after its kana. -/
def handakuten : Char := '゜'

/-- A word for a symbol that does not read well on a key; other symbols have none. -/
def displayName (symbol : Char) : Text :=
  if symbol = kanaSpace then "空白".toList
  else if symbol = shift then "シフト".toList
  else if symbol = returnSymbol then "Enter".toList
  else if symbol = backspace then "Backspace".toList
  else []

end Legend

end KanaTutor
