/-
Romanization: the keys that type a kana text on a romaji keyboard. The text is taken mora by mora. A
small tsu doubles the consonant of the next mora, a moraic nasal is completed by it, and a long-vowel
mark makes the vowel before it a circumflexed one.
-/
import KanaTutor.Kana.Syllabary
import KanaTutor.Kana.Width

namespace KanaTutor

/-- A line break is shown and typed as this symbol. -/
def returnSymbol : Char := '⏎'

/-! ## Long vowels -/

/-- The circumflexed form of a vowel. -/
def circumflexed? : Char → Option Char
  | 'a' => some 'â'
  | 'i' => some 'î'
  | 'u' => some 'û'
  | 'e' => some 'ê'
  | 'o' => some 'ô'
  | _ => none

/-- The vowel of a circumflexed form. -/
def plainVowel? : Char → Option Char
  | 'â' => some 'a'
  | 'î' => some 'i'
  | 'û' => some 'u'
  | 'ê' => some 'e'
  | 'ô' => some 'o'
  | _ => none

/-- The keys of a romaji character: a circumflexed vowel is typed as the vowel and a hyphen. -/
def keysOf (c : Char) : Text :=
  match plainVowel? c with
  | some vowel => [vowel, '-']
  | none => [c]

/-- The keys of a romaji text. -/
def hyphenize (romaji : Text) : Text := romaji.flatMap keysOf

/-! ## Morae -/

/-- A mora at the front of a text: how many characters it takes, and its romaji. -/
structure Mora where
  consumed : Nat
  romaji : Text
  consumed_pos : 0 < consumed

/-- Lengthens the mora's vowel if the text that the mora begins goes on with a long-vowel mark. -/
def Mora.lengthen (m : Mora) (t : Text) : Mora :=
  match t[m.consumed]?, m.romaji.getLast?.bind circumflexed? with
  | some 'ー', some vowel => ⟨m.consumed + 1, m.romaji.dropLast ++ [vowel], by omega⟩
  | _, _ => m

/-- The mora with one character more in front of it. -/
def Mora.after (key : Char) (m : Mora) : Mora := ⟨m.consumed + 1, key :: m.romaji, by omega⟩

/-- A mora of one character. -/
def Mora.single (romaji : Text) : Mora := ⟨1, romaji, by decide⟩

/-- How the moraic nasal is told from the na row: by an apostrophe before vowels and the ya row, and
under JIS X 4063, where a doubled `n` is a nasal too, before the na row as well. -/
structure Romanizer where
  x4063 : Bool := true

namespace Romanizer

/-- The nasal needs an apostrophe before `next`. -/
def needsApostrophe (r : Romanizer) (next : Char) : Bool :=
  "あいうえおやゆよ".toList.contains next || (r.x4063 && "なにぬねの".toList.contains next)

/-- The romaji of a character by itself: from the syllabary, or the half-width form of what is not in
it. -/
def romajiOf (c : Char) : Text :=
  match Syllabary.romaji? [c] with
  | some romaji => romaji
  | none => if c = '\n' then [returnSymbol] else [Width.half c]

/-- The romaji of a digraph at the front of a text. -/
def digraph? : Text → Option Text
  | first :: second :: _ => Syllabary.romaji? [first, second]
  | _ => none

/-- The first mora of a text, its last vowel not yet lengthened. -/
def bareMora? (r : Romanizer) : Text → Option Mora
  | [] => none
  | 'ん' :: rest =>
    if rest.head?.any r.needsApostrophe then some (.single ['n', '\''])
    else
      match bareMora? r rest with
      | some next => some ((next.lengthen rest).after 'n')
      | none => some (.single ['n'])
  | 'っ' :: rest =>
    match rest.head?.bind Syllabary.gemination? with
    | some consonant => (bareMora? r rest).map (·.after consonant)
    | none => some (.single (romajiOf 'っ'))
  | first :: rest =>
    match digraph? (first :: rest) with
    | some romaji => some ⟨2, romaji, by decide⟩
    | none => some (.single (romajiOf first))

/-- The first mora of a text. -/
def mora? (r : Romanizer) (t : Text) : Option Mora := (r.bareMora? t).map (·.lengthen t)

/-- The morae of a text. -/
def morae (r : Romanizer) (t : Text) : List Mora :=
  match _h : t, r.mora? t with
  | [], _ => []
  | _ :: _, none => []
  | first :: rest, some m => m :: r.morae ((first :: rest).drop m.consumed)
termination_by t.length
decreasing_by
  have := m.consumed_pos
  simp only [List.length_drop, List.length_cons]
  omega

/-- The romaji of a text. -/
def romanize (r : Romanizer) (t : Text) : Text := (r.morae t).flatMap Mora.romaji

/-- The keys that type a text. -/
def keys (r : Romanizer) (t : Text) : Text := hyphenize (r.romanize t)

/-- The number of keystrokes that type a text: a final `n` takes one more key to settle. -/
def keyCount (r : Romanizer) (t : Text) : Nat :=
  (r.keys t).length + if (r.keys t).getLast? = some 'n' then 1 else 0

end Romanizer

end KanaTutor
