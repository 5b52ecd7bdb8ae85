/-
The syllabary: the Kunrei-style romaji of every kana, of every digraph with a small kana, and of the
Japanese punctuation, and the consonant that a small tsu doubles before a kana.
-/
import KanaTutor.Text.Basic

namespace KanaTutor

namespace Syllabary

/-- The kana and digraphs with the romaji they are typed as. -/
def entries : List (String × String) := [
  ("あ", "a"), ("い", "i"), ("う", "u"), ("え", "e"), ("お", "o"), ("か", "ka"), ("き", "ki"),
  ("きゃ", "kya"), ("きゅ", "kyu"), ("きょ", "kyo"), ("く", "ku"), ("け", "ke"), ("こ", "ko"),
  ("が", "ga"), ("ぎ", "gi"), ("ぎゃ", "gya"), ("ぎゅ", "gyu"), ("ぎょ", "gyo"), ("ぐ", "gu"),
  ("げ", "ge"), ("ご", "go"), ("さ", "sa"), ("し", "si"), ("しゃ", "sya"), ("しゅ", "syu"),
  ("しょ", "syo"), ("す", "su"), ("せ", "se"), ("そ", "so"), ("ざ", "za"), ("じ", "zi"),
  ("じゃ", "zya"), ("じゅ", "zyu"), ("じょ", "zyo"), ("ず", "zu"), ("ぜ", "ze"), ("ぞ", "zo"),
  ("た", "ta"), ("ち", "ti"), ("ちゃ", "tya"), ("ちゅ", "tyu"), ("ちょ", "tyo"), ("つ", "tu"),
  ("て", "te"), ("と", "to"), ("だ", "da"), ("ぢ", "di"), ("ぢゃ", "dya"), ("ぢゅ", "dyu"),
  ("ぢょ", "dyo"), ("づ", "du"), ("で", "de"), ("ど", "do"), ("な", "na"), ("に", "ni"),
  ("にゃ", "nya"), ("にゅ", "nyu"), ("にょ", "nyo"), ("ぬ", "nu"), ("ね", "ne"), ("の", "no"),
  ("は", "ha"), ("ひ", "hi"), ("ひゃ", "hya"), ("ひゅ", "hyu"), ("ひょ", "hyo"), ("ふ", "hu"),
  ("へ", "he"), ("ほ", "ho"), ("ば", "ba"), ("び", "bi"), ("びゃ", "bya"), ("びゅ", "byu"),
  ("びょ", "byo"), ("ぶ", "bu"), ("べ", "be"), ("ぼ", "bo"), ("ぱ", "pa"), ("ぴ", "pi"),
  ("ぴゃ", "pya"), ("ぴゅ", "pyu"), ("ぴょ", "pyo"), ("ぷ", "pu"), ("ぺ", "pe"), ("ぽ", "po"),
  ("ま", "ma"), ("み", "mi"), ("みゃ", "mya"), ("みゅ", "myu"), ("みょ", "myo"), ("む", "mu"),
  ("め", "me"), ("も", "mo"), ("や", "ya"), ("ゆ", "yu"), ("よ", "yo"), ("ら", "ra"), ("り", "ri"),
  ("りゃ", "rya"), ("りゅ", "ryu"), ("りょ", "ryo"), ("る", "ru"), ("れ", "re"), ("ろ", "ro"),
  ("わ", "wa"), ("を", "wo"), ("ん", "n"), ("ぁ", "xa"), ("ぃ", "xi"), ("ぅ", "xu"), ("ぇ", "xe"),
  ("ぉ", "xo"), ("っ", "xtu"), ("ゃ", "xya"), ("ゅ", "xyu"), ("ょ", "xyo"), ("ー", "-"), ("、", ","),
  ("。", "."), ("「", "["), ("」", "]"), ("『", "\x7b"), ("』", "\x7d"), ("・", "/")
]

/-- The rows of kana before which a small tsu is typed by doubling the consonant. The vowels, the na
row and the moraic nasal are not among them. -/
def geminated : List (String × Char) := [
  ("かきくけこ", 'k'),
  ("がぎぐげご", 'g'),
  ("さしすせそ", 's'),
  ("ざじずぜぞ", 'z'),
  ("たちつてと", 't'),
  ("だぢづでど", 'd'),
  ("はひふへほ", 'h'),
  ("ばびぶべぼ", 'b'),
  ("ぱぴぷぺぽ", 'p'),
  ("まみむめも", 'm'),
  ("やゆよ", 'y'),
  ("らりるれろ", 'r'),
  ("わを", 'w')
]

/-- The romaji of a kana or digraph. -/
def romaji? (kana : Text) : Option Text :=
  (entries.find? fun (key, _) => key.toList = kana).map fun (_, romaji) => romaji.toList

/-- The consonant that a small tsu doubles before a character. -/
def gemination? (next : Char) : Option Char :=
  (geminated.find? fun (row, _) => next ∈ row.toList).map (·.2)

end Syllabary

end KanaTutor
