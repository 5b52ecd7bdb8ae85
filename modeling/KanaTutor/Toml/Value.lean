/-
TOML values, and tables as they are put together from a document. A table knows how it came about,
because that decides whether it may be added to.
-/
import KanaTutor.Text.Basic

namespace KanaTutor

namespace Toml

/-- A value. A table is `open` if it was never given a header or braces of its own, and `dotted` if it
comes from a dotted key; `tables` is an array of tables, each given by its own header; `inline` is a
table in braces. -/
inductive Value where
  | string (t : Text)
  | integer (n : Int)
  | float (x : Float)
  | boolean (b : Bool)
  | dateTime
  | array (items : List Value)
  | inline (members : List (Text × Value))
  | table (isOpen dotted : Bool) (members : List (Text × Value))
  | tables (items : List Value)

/-- The members of a table. -/
abbrev Members := List (Text × Value)

namespace Members

/-- The value of a key. -/
def get? (members : Members) (key : Text) : Option Value := (members.find? (·.1 = key)).map (·.2)

/-- The members with a value for a key, in place of the old one if there is one. -/
def set (members : Members) (key : Text) (v : Value) : Members :=
  if members.any (·.1 = key) then members.map fun (k, old) => if k = key then (k, v) else (k, old)
  else members ++ [(key, v)]

/-- Changes the table at a path, making the tables on the way. A dotted path leads only through tables
without a header. The change is told whether its table comes from a dotted key. -/
def changeAt (dotted : Bool) (change : Bool → Members → Option Members) :
    (path : List Text) → (isDotted : Bool) → Members → Option Members
  | [], isDotted, members => change isDotted members
  | key :: path, _, members =>
    match members.get? key with
    | none => (changeAt dotted change path dotted []).map fun inner => members.set key (.table true dotted inner)
    | some (.table isOpen isDotted inner) =>
      if dotted && !isOpen then none
      else (changeAt dotted change path isDotted inner).map fun inner =>
        members.set key (.table isOpen isDotted inner)
    | some (.tables items) =>
      match items.getLast? with
      | some (.table isOpen isDotted inner) =>
        (changeAt dotted change path isDotted inner).map fun inner =>
          members.set key (.tables (items.dropLast ++ [.table isOpen isDotted inner]))
      | _ => none
    | some _ => none

/-- Adds a value under a dotted key. A key is given once, and the table of a dotted key is not one that
was given otherwise. -/
def add (members : Members) (path : List Text) (key : Text) (v : Value) : Option Members :=
  members.changeAt true (fun isDotted inner =>
    if isDotted = path.isEmpty || inner.any (·.1 = key) then none else some (inner ++ [(key, v)])) path false

/-- Adds a table under a header, with what `fill` puts into it. -/
def addTable (members : Members) (path : List Text) (key : Text) (fill : Members → Option Members) : Option Members :=
  members.changeAt false (fun _ inner =>
    match inner.get? key with
    | none => (fill []).map fun t => inner.set key (.table false false t)
    | some (.table true false t) => (fill t).map fun t => inner.set key (.table false false t)
    | some _ => none) path false

/-- Adds a table to the array of tables under a header. -/
def addToTables (members : Members) (path : List Text) (key : Text) (fill : Members → Option Members) :
    Option Members :=
  members.changeAt false (fun _ inner =>
    match inner.get? key with
    | none => (fill []).map fun t => inner.set key (.tables [.table false false t])
    | some (.tables items) => (fill []).map fun t => inner.set key (.tables (items ++ [.table false false t]))
    | some _ => none) path false

end Members

end Toml

end KanaTutor
