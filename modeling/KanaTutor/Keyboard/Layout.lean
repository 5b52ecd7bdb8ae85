/-
Layouts: a keyboard with the legends that the learner types by, the small kana without a key of their
own, and the keys that are no keystrokes.
-/
import KanaTutor.Keyboard.Description
import KanaTutor.Text.Lowercase

namespace KanaTutor

/-- The small kana: each can be typed as its full-size kana and a voicing mark. -/
def smallKana : Text := "ぁぃぅぇぉゃゅょっ".toList

/-- A layout. -/
structure Layout where
  kind : LayoutKind
  board : Board
  smallKana : Text
  ignored : List NamedKey
deriving DecidableEq, Repr

namespace Layout

/-- Romaji typed on a keyboard as it is. -/
def romaji (b : Board) : Layout := ⟨.romaji, b, KanaTutor.smallKana, [.voidSymbol]⟩

/-- The layout used when none is asked for. -/
def standard : Layout := romaji .ansi104

/-! ## Romaji layouts -/

/-- The key is the one that acts as the space bar. -/
def isSpace (d : Description) (place : Place) (k : Keycap) : Bool :=
  match Board.modifierRole? k.base place.2, d.space with
  | some role, some name => role = name
  | _, _ => false

/-- A key of a romaji layout: the conversion key is blank, and shift types lower case. -/
def romajiKey (d : Description) (place : Place) (k : Keycap) : Keycap where
  width := k.width
  base :=
    if isSpace d place k then [' ']
    else if Description.legendOf d.henkan = some k.base then []
    else k.base
  shifted := Text.lowercase k.shifted

/-- The romaji layout of a description. -/
def ofRomaji (b : Board) (d : Description) : Layout :=
  let layout := romaji (b.mapKeys (romajiKey d))
  { layout with ignored := layout.ignored ++ d.henkan.toList }

/-! ## Kana layouts -/

/-- The legend belongs to one of the conversion keys. -/
def isConversion (d : Description) (legend : Text) : Bool :=
  Description.legendOf d.henkan = some legend || Description.legendOf d.muhenkan = some legend

/-- The legend without shift in a kana layout. A shifting space bar takes over from the shift keys. -/
def kanaBase (d : Description) (place : Place) (k : Keycap) : Text :=
  let legend := if isSpace d place k then [Legend.kanaSpace] else k.base
  if d.prefixShift ∧ legend = [' '] then [Legend.shift]
  else if d.prefixShift ∧ legend = [Legend.shift] then []
  else if isConversion d legend then []
  else (Description.replacement? d.normal legend).getD legend

/-- The key becomes a shifting space bar. -/
def becomesShift (d : Description) (k : Keycap) : Bool := d.prefixShift && k.base = [' ']

/-- The place of the first key that types an underscore with shift. -/
def underscore? (b : Board) : Option Place :=
  (b.places.find? fun (_, k) => Text.lowercase k.shifted = ['_']).map (·.1)

/-- The legend with shift in a kana layout. Of several underscores only the first stays. -/
def kanaShifted (b : Board) (d : Description) (place : Place) (k : Keycap) : Text :=
  let lower := Text.lowercase k.shifted
  let isRepeated := lower = ['_'] ∧ underscore? b ≠ some place
  let legend := if isRepeated ∨ becomesShift d k then [] else lower
  if isConversion d legend then [] else (Description.replacement? d.shift legend).getD legend

/-- A key of a kana layout. -/
def kanaKey (b : Board) (d : Description) (place : Place) (k : Keycap) : Keycap :=
  ⟨k.width, kanaBase d place k, kanaShifted b d place k⟩

/-- Some key types the character. -/
def types (b : Board) (c : Char) : Bool := b.rows.any (·.any fun k => k.base.contains c || k.shifted.contains c)

/-- The kana layout of a description. -/
def ofKana (b : Board) (d : Description) : Layout :=
  let board := b.mapKeys (kanaKey b d)
  { kind := .kana
    board
    smallKana := KanaTutor.smallKana.filter (!types board ·)
    ignored := .voidSymbol :: (if d.prefixShift then [.space] else []) ++ d.henkan.toList }

/-! ## Layouts -/

/-- The layout that a description makes of a keyboard. -/
def ofDescription (b : Board) (d : Description) : Layout :=
  match d.kind with
  | .romaji => ofRomaji b d
  | .kana => ofKana b d

/-- Pressing the key is a keystroke. -/
def isKeystroke (layout : Layout) (press : KeyPress) : Bool :=
  !press.synthetic &&
    match press.key with
    | .char _ => true
    | .named key => !NamedKey.silent.contains key && !layout.ignored.contains key

end Layout

end KanaTutor
