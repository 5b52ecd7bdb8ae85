/-
Paths: names with slashes between them, from the root directory if they begin with one.
-/
import KanaTutor.Text.Basic

namespace KanaTutor

/-- A path. -/
abbrev Path := Text

namespace Path

/-- The path begins at the root directory. -/
def isAbsolute (p : Path) : Bool := p.head? = some '/'

/-- What stands between the slashes of a path; there is one piece more than slashes. -/
def pieces : Path → List Text
  | [] => [[]]
  | c :: rest =>
    match pieces rest with
    | [] => [[c]]
    | piece :: others => if c = '/' then [] :: piece :: others else (c :: piece) :: others

/-- A path seen from a directory. -/
def join (dir p : Path) : Path :=
  if isAbsolute p || dir.isEmpty then p
  else if dir.getLast? = some '/' then dir ++ p
  else dir ++ '/' :: p

/-- The piece is the name of something, and not the directory it stands in. -/
def isName (piece : Text) : Bool := !piece.isEmpty && piece ≠ ['.']

/-- The pieces up to the last name. -/
def upToName (pieces : List Text) : List Text := (pieces.reverse.dropWhile (!isName ·)).reverse

/-- The directory part of a path, as it is written there; that of a single name is empty. A path without
names has none, except for a dot at its beginning, which stands for the name of the working directory. -/
def parent? (p : Path) : Option Path :=
  match pieces p with
  | [] => none
  | first :: rest =>
    if isName first then some (List.intercalate ['/'] (upToName (upToName (first :: rest)).dropLast))
    else
      match upToName rest with
      | [] => if first.isEmpty then none else some []
      | body =>
        match upToName body.dropLast with
        | [] => some (if first.isEmpty then ['/'] else first)
        | dir => some (List.intercalate ['/'] (first :: dir))

end Path

end KanaTutor
