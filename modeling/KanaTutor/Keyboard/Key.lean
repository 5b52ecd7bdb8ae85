/-
Key presses: a character or a named key, typed or sent by an input method.
-/
import KanaTutor.Keyboard.Legend

namespace KanaTutor

/-- The keys without a character that the tutor tells apart. -/
inductive NamedKey where
  | backSpace
  | capsLock
  | henkan
  | muhenkan
  | hiraganaKatakana
  | shiftL
  | shiftR
  | space
  | enter
  | voidSymbol
  | other
deriving DecidableEq, Repr

namespace NamedKey

/-- The symbol names of the X keyboard tables. -/
def symbols : List (String × NamedKey) := [
  ("BackSpace", backSpace),
  ("Caps_Lock", capsLock),
  ("Henkan", henkan),
  ("Henkan_Mode", henkan),
  ("Muhenkan", muhenkan),
  ("Hiragana_Katakana", hiraganaKatakana),
  ("Shift_L", shiftL),
  ("Shift_R", shiftR),
  ("space", space),
  ("Return", enter),
  ("VoidSymbol", voidSymbol)
]

/-- The key with a symbol name. -/
def ofSymbol (symbol : Text) : NamedKey :=
  ((symbols.find? fun (name, _) => name.toList = symbol).map (·.2)).getD other

/-- The legend on the key, if it has one. -/
def legend? : NamedKey → Option Text
  | henkan => some "変換".toList
  | muhenkan => some "無変換".toList
  | hiraganaKatakana => some "カタカナ".toList
  | space => some [' ']
  | backSpace => some [Legend.backspace]
  | enter => some [returnSymbol]
  | _ => none

/-- The keys that are no keystroke on any layout: they edit, shift, or switch the input method. -/
def silent : List NamedKey := [backSpace, capsLock, henkan, hiraganaKatakana, shiftL, shiftR]

end NamedKey

/-- A key. -/
inductive Key where
  | char (c : Char)
  | named (key : NamedKey)
deriving DecidableEq, Repr

/-- A key press. An input method sends synthetic ones, which nobody typed. -/
structure KeyPress where
  key : Key
  synthetic : Bool
deriving DecidableEq, Repr

end KanaTutor
