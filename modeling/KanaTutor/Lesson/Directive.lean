/-
Directives: the lines of a lesson that begin with a colon and a keyword. All other lines are content.
-/
import KanaTutor.Number.Natural
import KanaTutor.Text.Blank

namespace KanaTutor

/-- A directive. -/
inductive Directive where
  /-- Sets the title. -/
  | title (title : Text)
  /-- The content lines that follow are the text to practise. -/
  | text
  /-- The content lines that follow are the hint. -/
  | hint
  /-- Sets the mode of the input method. -/
  | imeMode (mode : Text)
  /-- Shows the keyboard. -/
  | keyboard
  /-- Practises lines of the text in a random order, so many in a round, or all, and so many rounds. -/
  | random (lines : Option Nat) (rounds : Nat)
  /-- Practises the text. -/
  | start
  /-- Shows the score of the last round. -/
  | showScore
  /-- Goes back to the lesson with the menu. -/
  | up
  /-- Goes on to a lesson, or to the next one of the menu. -/
  | next (target : Option Text)
  /-- Offers a choice of lessons. -/
  | menu (targets : List Text)
  /-- Types full-width characters. -/
  | zenkaku
  /-- Does nothing. -/
  | unknown (body : Text)
deriving DecidableEq, Repr

namespace Directive

/-- The first character of every directive. -/
def marker : Char := ':'

/-- The arguments of a random directive: a number of lines, and a number of rounds, at least one. What is
not a number counts as missing. -/
def ofRandomArguments (arguments : Text) : Directive :=
  match arguments.words with
  | [] => .random none 1
  | [lines] => .random (Natural.readWord? lines) 1
  | lines :: rounds :: _ => .random (Natural.readWord? lines) (max 1 ((Natural.readWord? rounds).getD 1))

/-- The keywords, each with the directive that it makes of what follows it. A keyword needs no space
after it, but for the title. -/
def keywords : List (String × (Text → Directive)) := [
  ("title ", fun rest => .title rest.trim),
  ("text", fun _ => .text),
  ("hint", fun _ => .hint),
  ("ime_mode", fun rest => .imeMode rest.trim),
  ("keyboard", fun _ => .keyboard),
  ("random", ofRandomArguments),
  ("start", fun _ => .start),
  ("show_score", fun _ => .showScore),
  ("up", fun _ => .up),
  ("next", fun rest => .next (if rest.trim.isEmpty then none else some rest.trim)),
  ("menu", fun rest => .menu rest.words),
  ("zenkaku", fun _ => .zenkaku)
]

/-- The directive of a line after its marker. -/
def ofBody (body : Text) : Directive :=
  (keywords.findSome? fun (keyword, make) => (body.afterStart? keyword.toList).map make).getD (.unknown body)

/-- Reads a line; nothing for a content line. -/
def read? (line : Text) : Option Directive := (line.afterStart? [marker]).map ofBody

end Directive

end KanaTutor
