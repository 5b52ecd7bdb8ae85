/-
A disk: files and directories at their locations, and the working directory that relative paths start
from. What the tutor reads and writes lies on it.
-/
import KanaTutor.Disk.Path
import KanaTutor.Text.Utf8

namespace KanaTutor

/-- A place on the disk: the names on the way to it from the root directory. -/
abbrev Location := List Text

/-- What can be at a location. -/
inductive Entry where
  | file (content : Octets)
  | directory
deriving DecidableEq, Repr

/-- A disk. -/
structure Disk where
  entries : List (Location × Entry)
  workingDir : Location
deriving DecidableEq, Repr

/-- Why a path leads nowhere. -/
inductive DiskError where
  /-- There is nothing. -/
  | notFound
  /-- There is something else than is asked for, or the path is not a possible one. -/
  | unusable
deriving DecidableEq, Repr

namespace Disk

/-- What is at a location. -/
def entry? (disk : Disk) (loc : Location) : Option Entry :=
  if loc.isEmpty then some .directory else (disk.entries.find? (·.1 = loc)).map (·.2)

/-- The disk with something at a location. -/
def put (disk : Disk) (loc : Location) (entry : Entry) : Disk :=
  { disk with entries := (loc, entry) :: disk.entries.filter (·.1 ≠ loc) }

/-- The number of octets that a name may have. -/
def maxName : Nat := 255

/-- The number of octets that a path may have. -/
def maxPath : Nat := 4095

/-- The path can be asked for: it is not too long, and it holds no NUL. -/
def isPossible (p : Path) : Bool := (Utf8.encode p).length ≤ maxPath && !p.contains '\x00'

/-- Something can have the name. -/
def isPossibleName (name : Text) : Bool := (Utf8.encode name).length ≤ maxName

/-- Follows the pieces of a path. All but the last must lead to directories; nothing need be at the
location they lead to. A name that is too long matters only where it is looked for. -/
def walk (disk : Disk) (loc : Location) : List Text → Except DiskError Location
  | [] => .ok loc
  | piece :: rest =>
    match disk.entry? loc with
    | none => .error .notFound
    | some (.file _) => .error .unusable
    | some .directory =>
      if !Path.isName piece then walk disk loc rest
      else if piece = "..".toList then walk disk loc.dropLast rest
      else if isPossibleName piece then walk disk (loc ++ [piece]) rest
      else .error .unusable

/-- The location that the pieces of a path start from. -/
def startOf (disk : Disk) (p : Path) : Location := if Path.isAbsolute p then [] else disk.workingDir

/-- The location of a path. -/
def locate (disk : Disk) (p : Path) : Except DiskError Location :=
  if p.isEmpty then .error .notFound
  else if !isPossible p then .error .unusable
  else disk.walk (disk.startOf p) (Path.pieces p)

/-! ## Reading -/

/-- There is something at a path. -/
def exists? (disk : Disk) (p : Path) : Bool :=
  match disk.locate p with
  | .ok loc => (disk.entry? loc).isSome
  | .error _ => false

/-- The content of a file. -/
def read (disk : Disk) (p : Path) : Except DiskError Octets := do
  match disk.entry? (← disk.locate p) with
  | none => .error .notFound
  | some .directory => .error .unusable
  | some (.file content) => .ok content

/-- The text of a file, if there is one and it is well-formed. -/
def readText? (disk : Disk) (p : Path) : Option Text :=
  match disk.read p with
  | .ok content => Utf8.decode? content
  | .error _ => none

/-! ## Writing -/

/-- The location of a file that can be written, whether it exists or not. -/
def locateFile (disk : Disk) (p : Path) : Except DiskError Location := do
  let loc ← disk.locate p
  match disk.entry? loc with
  | some .directory => .error .unusable
  | some (.file _) => .ok loc
  | none => if disk.entry? loc.dropLast = some .directory then .ok loc else .error .notFound

/-- Makes the directories on the way along the pieces of a path, up to one that cannot be made: whether
they are all there then, and the disk. -/
def makeAlong (disk : Disk) (loc : Location) : List Text → Bool × Disk
  | [] => (true, disk)
  | piece :: rest =>
    if !Path.isName piece then makeAlong disk loc rest
    else if piece = "..".toList then makeAlong disk loc.dropLast rest
    else if !isPossibleName piece then (false, disk)
    else
      let next := loc ++ [piece]
      match disk.entry? next with
      | some .directory => makeAlong disk next rest
      | some (.file _) => (false, disk)
      | none => makeAlong (disk.put next .directory) next rest

/-- Makes a directory and those above it: whether it is there then, and the disk. -/
def makeDirectory (disk : Disk) (p : Path) : Bool × Disk :=
  if isPossible p then disk.makeAlong (disk.startOf p) (Path.pieces p) else (false, disk)

/-- Writes a file from the beginning. -/
def write (disk : Disk) (p : Path) (content : Octets) : Except DiskError Disk := do
  let loc ← disk.locateFile p
  .ok (disk.put loc (.file content))

/-- Writes on after the end of a file. -/
def append (disk : Disk) (loc : Location) (content : Octets) : Disk :=
  match disk.entry? loc with
  | some (.file before) => disk.put loc (.file (before ++ content))
  | _ => disk.put loc (.file content)

end Disk

end KanaTutor
