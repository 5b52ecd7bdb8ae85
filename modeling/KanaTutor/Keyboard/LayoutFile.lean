/-
Layout files: a layout description on the disk, for the keyboard that its name tells.
-/
import KanaTutor.Disk.Basic
import KanaTutor.Keyboard.Layout

namespace KanaTutor

/-- Why a layout file cannot be used. -/
inductive LayoutError where
  | notFound (path : Path)
  | malformed (path : Path)
deriving DecidableEq, Repr

/-- What is said about a layout file that cannot be used. -/
def LayoutError.message : LayoutError → Text
  | notFound path => "keyboard layout \"".toList ++ path ++ "\" was not found".toList
  | malformed path => "keyboard layout \"".toList ++ path ++ "\" is not valid JSON".toList

namespace Layout

/-- The layout in a file. -/
def load (disk : Disk) (path : Path) : Except LayoutError Layout :=
  match disk.readText? path with
  | none => .error (.notFound path)
  | some content =>
    match Description.read? content with
    | none => .error (.malformed path)
    | some d => .ok (ofDescription (.ofLayoutPath path) d)

/-- The layout in a file, or romaji on its keyboard if the file cannot be used. -/
def loadOrRomaji (disk : Disk) (path : Path) : Layout :=
  if path.isEmpty then standard
  else
    match load disk path with
    | .ok layout => layout
    | .error _ => romaji (.ofLayoutPath path)

end Layout

end KanaTutor
