/-
What is printed: the keystrokes of a text, the parts of an annotated text, the practice history, and
the state of a lesson.
-/
import KanaTutor.Ruby.Shorthand
import KanaTutor.Tutor

namespace KanaTutor

namespace Terminal

/-- A line of output. -/
def line (pieces : List Text) : Text := pieces.flatten ++ ['\n']

/-- A number that is not negative with a fixed number of decimal places, in at least `width` characters. -/
def column (width places : Nat) (x : Float) : Text :=
  Natural.padStart ' ' width (writeFixed places (Double.magnitude x))

/-- A duration in minutes. -/
def minutes (d : Duration) : Float := d.seconds / 60.0

/-! ## Texts -/

/-- The keystrokes of a kana text: romaji and keys on a romaji layout, and their number. -/
def romanization (typing : Typing) (t : Text) : Text :=
  let reading := t.hiragana
  let romaji := match typing.layout.kind with
    | .romaji =>
      line ["romaji: ".toList, typing.romanizer.romanize reading] ++
        line ["keys:   ".toList, typing.romanizer.keys reading]
    | .kana => []
  romaji ++ line ["count:  ".toList, Natural.write (typing.keyCount reading)]

/-- The parts of an annotated text, written with braces or with the annotation characters. -/
def parts (t : Text) : Text :=
  let annotated := Ruby.expandBraces t
  let plain := Ruby.plain annotated
  let spans := (Ruby.Layout.ofText annotated).spans.map fun span =>
    line ["  ".toList, (plain.drop span.start).take span.length, " (".toList, span.reading, ") at ".toList,
      Natural.write span.start]
  line ["plain:   ".toList, plain] ++ line ["reading: ".toList, Ruby.reading annotated] ++ spans.flatten

/-! ## History -/

/-- One day on a line. -/
def dayLine (d : Day) : Text :=
  line [d.date.write, "  ".toList, column 6 1 (minutes d.duration), " min  ".toList,
    Natural.padStart ' ' 3 (Natural.write d.wordsPerMinute), " wpm  ".toList, column 3 0 (d.accuracy * 100.0),
    ['%']]

/-- The days, one on a line. -/
def days (log : Log) : Text := log.days.flatMap dayLine

/-- The practice history. -/
def history (log : Log) : Text :=
  if log.days.isEmpty then line ["no practice recorded yet".toList]
  else
    days log ++ line ["best: ".toList, Natural.write log.maxWordsPerMinute, " wpm, ".toList,
      column 0 1 (minutes log.maxDuration), " min in a day".toList]

/-! ## Lessons -/

/-- A menu, its entries with the digits that choose them. -/
def menu (p : Player) : Text :=
  let title := if p.title.isEmpty then [] else line ["== ".toList, p.title, " ==".toList]
  let entries := ("1234567890".toList.zip p.trail.menu).map fun (key, target) =>
    line [[key], ". ".toList, target]
  title ++ entries.flatten

/-- A key by its symbol, or by a word that explains it. -/
def keyName (c : Char) : Text := if (Legend.displayName c).isEmpty then [c] else Legend.displayName c

/-- The next keys. -/
def nextKeys (h : Hint) : Text :=
  if h.sequence.isEmpty then []
  else
    line ["next: ".toList, h.literal, " [".toList, List.intercalate [' '] (h.sequence.map keyName), [']']]

/-- A line unless there is nothing on it. -/
def lineOf (t : Text) : Text := if t.isEmpty then [] else line [t]

/-- A round: its hint, its target, the next keys if the keyboard is shown, and what has been typed. -/
def round (t : Tutor) : Text :=
  let p := t.desk.player
  lineOf p.hint ++ line [p.target.plain] ++ (if p.showsKeyboard then nextKeys t.hint else []) ++
    lineOf p.session.typed

/-- The score of a round, with its stars. -/
def score (r : RoundResult) (points : Nat) : Text :=
  let (filled, bonus) := RoundResult.stars points
  line [Natural.write r.wordsPerMinute, " wpm, ".toList, column 0 0 (r.accuracy * 100.0), "% accuracy, ".toList,
    column 0 1 r.duration.seconds, " s  ".toList, List.replicate filled '★', List.replicate bonus '☆']

/-- The state of a lesson, and the tutor that has shown it. -/
def state (t : Tutor) (now : Instant) : Text × Tutor :=
  match t.desk.player.mode with
  | .menu => (menu t.desk.player, t)
  | .practice => (round t, t)
  | .score =>
    let (r, t) := t.result now
    let (points, t) := t.score now
    (score r points, t)
  | .stats =>
    let log := t.desk.log
    (days log ++ line ["best: ".toList, Natural.write log.maxWordsPerMinute, " wpm".toList], t)
  | _ => ([], t)

end Terminal

end KanaTutor
