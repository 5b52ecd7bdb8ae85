/-
Keyboards as they stand on the table: rows of keys with their widths and legends, without regard to
what a layout makes of them.
-/
import KanaTutor.Keyboard.Key

namespace KanaTutor

/-- A key cap: its width in hundredths of a key, and its legends without and with shift. -/
structure Keycap where
  width : Nat
  base : Text
  shifted : Text
deriving DecidableEq, Repr

/-- The place of a key: its row, and its column in that row. -/
abbrev Place := Nat × Nat

/-- A keyboard. -/
structure Board where
  name : Text
  rows : List (List Keycap)
deriving DecidableEq, Repr

namespace Board

/-! ## The standard keyboards -/

/-- Keys of full width, each given by its two legends. -/
def charKeys : Text → List Keycap
  | base :: shifted :: rest => ⟨100, [base], [shifted]⟩ :: charKeys rest
  | _ => []

/-- A key with one legend. -/
def labelKey (width : Nat) (label : String) : Keycap := ⟨width, label.toList, []⟩

/-- The ANSI keyboard of 104 keys. -/
def ansi104 : Board where
  name := "104".toList
  rows := [
    charKeys "`~1!2@3#4$5%6^7&8*9(0)-_=+".toList ++ [labelKey 200 "⌫"],
    labelKey 150 "⇥" :: charKeys "qQwWeErRtTyYuUiIoOpP[\x7b]\x7d".toList ++ [⟨150, ['\\'], ['|']⟩],
    labelKey 175 "⇪" :: charKeys "aAsSdDfFgGhHjJkKlL;:'\"".toList ++ [labelKey 225 "⏎"],
    labelKey 225 "⇧" :: charKeys "zZxXcCvVbBnNmM,<.>/?".toList ++ [labelKey 275 "⇧"],
    [labelKey 125 "⌃", labelKey 125 "❖", labelKey 125 "⌥", labelKey 625 " ", labelKey 125 "⌥",
      labelKey 125 "❖", labelKey 125 "☰", labelKey 125 "⌃"]
  ]

/-- The JIS keyboard of 109 keys. -/
def jis109 : Board where
  name := "109".toList
  rows := [
    labelKey 100 "🌍" :: charKeys "1!2\"3#4$5%6&7'8(9)0_-=^~¥|".toList ++ [labelKey 100 "⌫"],
    labelKey 150 "⇥" :: charKeys "qQwWeErRtTyYuUiIoOpP@`[\x7b".toList ++ [labelKey 150 "⏎"],
    labelKey 175 "⇪" :: charKeys "aAsSdDfFgGhHjJkKlL;+:*]\x7d".toList,
    labelKey 225 "⇧" :: charKeys "zZxXcCvVbBnNmM,<.>/?\\_".toList ++ [labelKey 175 "⇧"],
    [labelKey 150 "⌃", labelKey 125 "❖", labelKey 125 "⌥", labelKey 150 "無変換", labelKey 250 " ",
      labelKey 150 "変換", labelKey 125 "カタカナ", labelKey 100 "⌥", labelKey 100 "❖",
      labelKey 100 "☰", labelKey 125 "⌃"]
  ]

/-- The keyboard that a layout file describes: its name tells a JIS keyboard. -/
def ofLayoutPath (path : Text) : Board :=
  if ".109.json".toList.isSuffixOf path then jis109 else ansi104

/-! ## Places -/

/-- The key at a place. -/
def key? (b : Board) (place : Place) : Option Keycap := b.rows[place.1]?.bind (·[place.2]?)

/-- All keys with their places, row by row. -/
def places (b : Board) : List (Place × Keycap) :=
  (b.rows.mapIdx fun row keys => keys.mapIdx fun column key => ((row, column), key)).flatten

/-- The places of the keys with a given legend without shift. -/
def placesOf (b : Board) (legend : Text) : List Place :=
  (b.places.filter (·.2.base = legend)).map (·.1)

/-- The keyboard with every key changed, depending on its place. -/
def mapKeys (f : Place → Keycap → Keycap) (b : Board) : Board :=
  { b with rows := b.rows.mapIdx fun row keys => keys.mapIdx fun column key => f (row, column) key }

/-! ## Hands and modifiers -/

/-- A hand. -/
inductive Hand where
  | left
  | right
deriving DecidableEq, Repr

/-- The other hand. -/
def Hand.opposite : Hand → Hand
  | .left => .right
  | .right => .left

/-- The hand that types a column of the character rows. -/
def handOf (column : Nat) : Hand := if column ≤ 5 then .left else .right

/-- The name of a modifier key by its legend and side. The first four keys of a row are on the left. -/
def modifierRole? (legend : Text) (column : Nat) : Option Text :=
  let side := if 4 ≤ column then 'R' else 'L'
  let role := if legend = ['⌃'] then some "Control_"
    else if legend = ['❖'] then some "Super_"
    else if legend = ['⌥'] then some "Alt_"
    else if legend = [Legend.shift] then some "Shift_"
    else none
  role.map fun name => name.toList ++ [side]

end Board

end KanaTutor
