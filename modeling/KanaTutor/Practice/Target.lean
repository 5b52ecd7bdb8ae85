/-
The target of a practice round: what has to be typed, how it is read, and how many keystrokes the
reading takes.
-/
import KanaTutor.Keyboard.Hint
import KanaTutor.Ruby.Segment

namespace KanaTutor

/-- The target of a round. -/
structure Target where
  plain : Text := []
  reading : Text := []
  keyCount : Nat := 0
deriving DecidableEq, Repr

namespace Target

/-- The target that an annotated text sets. -/
def ofText (typing : Typing) (t : Text) : Target :=
  ⟨Ruby.plain t, Ruby.reading t, typing.keyCount (Ruby.reading t)⟩

/-- What is left of a text after the beginning it has in common with what was typed. -/
def afterCommon : Text → Text → Text
  | c :: rest, d :: typed => if c = d then afterCommon rest typed else c :: rest
  | rest, _ => rest

/-- What is left to type. -/
def remaining (target : Target) (typed : Text) : Text := afterCommon target.plain typed

end Target

end KanaTutor
