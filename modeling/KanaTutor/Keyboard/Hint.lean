/-
Hints: the keys to press next for the front of a text, where they are, and which shift keys to hold;
and the number of keystrokes that a text takes.
-/
import KanaTutor.Keyboard.Layout

namespace KanaTutor

/-! ## Marks -/

/-- The kana at the same position of the second row as `c` in the first. -/
def counterpart? (c : Char) (kana plain : String) : Option Char :=
  ((kana.toList.zip plain.toList).find? (·.1 = c)).map (·.2)

/-- A voiced or half-voiced kana as the kana and the mark that are typed for it; a small kana without a
key of its own as the full-size kana and a voicing mark. -/
def decompose? (smallKana : Text) (c : Char) : Option (Char × Char) :=
  match counterpart? c "がぎぐげござじずぜぞだぢづでどばびぶべぼゔ" "かきくけこさしすせそたちつてとはひふへほう" with
  | some base => some (base, Legend.dakuten)
  | none =>
    match counterpart? c "ぱぴぷぺぽ" "はひふへほ" with
    | some base => some (base, Legend.handakuten)
    | none =>
      if smallKana.contains c then
        (counterpart? c "ぁぃぅぇぉゃゅょっ" "あいうえおやゆよつ").map (·, Legend.dakuten)
      else none

/-! ## Keys -/

/-- A key to press, with shift or without. -/
structure Stroke where
  place : Place
  shifted : Bool
deriving DecidableEq, Repr

/-- What to type next: the characters that the hint covers, a line break as a symbol, and how many they
are; the keys in order; where they are; and the shift keys to hold. -/
structure Hint where
  literal : Text := []
  consumed : Nat := 0
  sequence : Text := []
  strokes : List Stroke := []
  shiftKeys : List Place := []
deriving DecidableEq, Repr

/-- How kana texts are typed: by a romanizer, or by the keys of a layout. -/
structure Typing where
  romanizer : Romanizer := {}
  layout : Layout := .standard

namespace Typing

/-- The keys of one kana. -/
def kanaKeys (typing : Typing) (c : Char) : Text :=
  if c = '\n' then [returnSymbol]
  else
    match decompose? typing.layout.smallKana c with
    | some (base, mark) => [base, mark]
    | none => [c]

/-- How many characters the next keys type, and the keys. -/
def next? (typing : Typing) (t : Text) : Option (Nat × Text) :=
  match typing.layout.kind with
  | .romaji => (typing.romanizer.mora? t).map fun m => (m.consumed, hyphenize m.romaji)
  | .kana => t.head?.map fun c => (1, typing.kanaKeys c)

/-- How a key types a character: not at all, without shift, or with shift. -/
def strokeOn (c : Char) (place : Place) (k : Keycap) : Option Stroke :=
  if k.base.contains c then some ⟨place, false⟩
  else if k.shifted.contains c then some ⟨place, true⟩
  else none

/-- The keys that type the characters, each named once. -/
def strokes (b : Board) (sequence : Text) : List Stroke :=
  (sequence.flatMap fun c => b.places.filterMap fun (place, k) => strokeOn c place k).eraseDups

/-- Some key is typed with shift by the given hand. -/
def usesShift (hand : Board.Hand) (strokes : List Stroke) : Bool :=
  strokes.any fun s => s.shifted && Board.handOf s.place.2 = hand

/-- The shift keys to hold, each by the hand that does not type. A lone shift key serves both hands. -/
def shiftKeys (b : Board) (strokes : List Stroke) : List Place :=
  match b.placesOf [Legend.shift] with
  | [] => []
  | first :: others =>
    let right := if usesShift .left strokes then [others.head?.getD first] else []
    if usesShift .right strokes && !right.contains first then right ++ [first] else right

/-- What to type next for the front of a text; nothing for the empty text. -/
def hint (typing : Typing) (t : Text) : Hint :=
  match typing.next? t with
  | none => {}
  | some (consumed, sequence) =>
    let strokes := strokes typing.layout.board sequence
    { literal := (t.take consumed).map fun c => if c = '\n' then returnSymbol else c
      consumed
      sequence
      strokes
      shiftKeys := shiftKeys typing.layout.board strokes }

/-- The number of keystrokes that type a reading. -/
def keyCount (typing : Typing) (reading : Text) : Nat :=
  match typing.layout.kind with
  | .romaji => typing.romanizer.keyCount reading
  | .kana => (reading.flatMap typing.kanaKeys).length

end Typing

end KanaTutor
