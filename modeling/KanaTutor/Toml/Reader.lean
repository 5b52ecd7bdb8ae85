/-
Reading a TOML document: the values, the keys, and the lines that the document consists of.
-/
import KanaTutor.Toml.Scalar

namespace KanaTutor

namespace Toml

/-- The number of names in a dotted key, and of arrays and inline tables around a value, is below this. -/
def maxDepth : Nat := 80

/-! ## White space and comments -/

/-- What follows a comment, up to the end of its line. -/
def skipComment : Text → Text
  | '#' :: rest => rest.dropWhile isPrintable
  | t => t

/-- What follows the end of a line, with spaces and a comment before it; nothing if something else is on
the line. -/
def takeLineEnd? (t : Text) : Option Text :=
  match skipComment (skipSpace t) with
  | [] => some []
  | t => takeBreak? t

/-- What follows spaces, comments and line breaks. A comment ends with its line. -/
def skipLines : Text → Option Text
  | [] => some []
  | c :: rest =>
    if isSpace c || c = '\n' then skipLines rest
    else if c = '\r' then
      match rest with
      | '\n' :: rest => skipLines rest
      | _ => none
    else if c = '#' then skipLines (rest.dropWhile isPrintable)
    else some (c :: rest)
termination_by t => t.length
decreasing_by
  · simp
  · simp only [List.length_cons]
    omega
  · have := (List.dropWhile_suffix isPrintable (l := rest)).length_le
    simp only [List.length_cons]
    omega

/-! ## Keys -/

/-- The character may stand in a key without quotes. -/
def isBare (c : Char) : Bool := c.isAlphanum || c = '-' || c = '_'

/-- Takes one name of a key off the front, with spaces around it. -/
def takeName? (t : Text) : Option (Text × Text) :=
  let named := match skipSpace t with
    | '"' :: rest => takeLine? '"' rest
    | '\'' :: rest => takeLine? '\'' rest
    | t => if t.head?.any isBare then some (t.takeWhile isBare, t.dropWhile isBare) else none
  named.map fun (name, rest) => (name, skipSpace rest)

/-- Takes the names of a key off the front, at most so many. -/
def takeNames? : Nat → Text → Option (List Text × Text)
  | 0, _ => none
  | limit + 1, t =>
    match takeName? t with
    | none => none
    | some (name, '.' :: rest) => (takeNames? limit rest).map fun (names, rest) => (name :: names, rest)
    | some (name, rest) => some ([name], rest)

/-- Takes a key off the front: the path to its table, its last name, and what follows. -/
def takeKey? (t : Text) : Option (List Text × Text × Text) := do
  let (names, rest) ← takeNames? (maxDepth - 1) t
  let name ← names.getLast?
  some (names.dropLast, name, rest)

/-- Takes a key and its equals sign off the front, with the spaces after it. -/
def takeKeySign? (t : Text) : Option (List Text × Text × Text) := do
  let (path, name, rest) ← takeKey? t
  let rest ← takeChar? '=' rest
  some (path, name, skipSpace rest)

/-! ## Values -/

mutual

/-- Takes a value off the front. So many containers may be around its parts. -/
def takeValue? (depth : Nat) (t : Text) : Option (Value × Text) :=
  match depth, t with
  | _, '"' :: rest => (takeString? '"' rest).map fun (s, rest) => (.string s, rest)
  | _, '\'' :: rest => (takeString? '\'' rest).map fun (s, rest) => (.string s, rest)
  | depth + 1, '[' :: rest => (takeItems? depth rest).map fun (items, rest) => (.array items, rest)
  | depth + 1, '{' :: rest =>
    match skipSpace rest with
    | '}' :: rest => some (.inline [], rest)
    | rest => (takeMembers? depth [] rest).map fun (members, rest) => (.inline members, rest)
  | _, t =>
    match t.afterStart? "true".toList, t.afterStart? "false".toList, takeDateTime? t with
    | some rest, _, _ => some (.boolean true, rest)
    | _, some rest, _ => some (.boolean false, rest)
    | _, _, some rest => some (.dateTime, rest)
    | none, none, none => takeNumber? t
termination_by (depth, 2 * t.length)

/-- Takes the items of an array off the front, and its closing bracket. A comma may follow the last. -/
def takeItems? (depth : Nat) (t : Text) : Option (List Value × Text) :=
  match skipLines t with
  | none => none
  | some (']' :: rest) => some ([], rest)
  | some start =>
    if start.length ≤ t.length then
      match takeValue? depth start with
      | none => none
      | some (v, rest) =>
        match skipLines rest with
        | some (',' :: rest) =>
          if rest.length < t.length then
            (takeItems? depth rest).map fun (items, rest) => (v :: items, rest)
          else none
        | some (']' :: rest) => some ([v], rest)
        | _ => none
    else none
termination_by (depth, 2 * t.length + 1)

/-- Takes the members of a table in braces off the front, after those before, and its closing brace. -/
def takeMembers? (depth : Nat) (before : Members) (t : Text) : Option (Members × Text) :=
  match takeKeySign? t with
  | none => none
  | some (path, key, start) =>
    if start.length < t.length then
      match takeValue? depth start with
      | none => none
      | some (v, rest) =>
        match before.add path key v with
        | none => none
        | some members =>
          match skipSpace rest with
          | ',' :: rest => if rest.length < t.length then takeMembers? depth members rest else none
          | '}' :: rest => some (members, rest)
          | _ => none
    else none
termination_by (depth, 2 * t.length + 1)

end

/-! ## Documents -/

/-- A line of a document that says something. -/
inductive Line where
  | header (path : List Text) (key : Text)
  | arrayHeader (path : List Text) (key : Text)
  | pair (path : List Text) (key : Text) (v : Value)

/-- Takes a header off the front, after its first bracket. -/
def takeHeader? : Text → Option (Line × Text)
  | '[' :: rest => do
    let (path, key, rest) ← takeKey? rest
    let rest ← rest.afterStart? [']', ']']
    some (.arrayHeader path key, rest)
  | rest => do
    let (path, key, rest) ← takeKey? rest
    let rest ← takeChar? ']' rest
    some (.header path key, rest)

/-- Takes a key and its value off the front. -/
def takePair? (t : Text) : Option (Line × Text) := do
  let (path, key, rest) ← takeKeySign? t
  let (v, rest) ← takeValue? (maxDepth - 1) rest
  some (.pair path key v, rest)

/-- Takes a line off the front. -/
def takeDocumentLine? : Text → Option (Line × Text)
  | '[' :: rest => takeHeader? rest
  | t => takePair? t

/-- The lines of a document that say something. -/
def lines? (t : Text) : Option (List Line) :=
  match skipSpace t with
  | [] => some []
  | start =>
    let said := if start.head? = some '#' || (takeBreak? start).isSome then some (none, start)
      else (takeDocumentLine? start).map fun (line, rest) => (some line, rest)
    match said with
    | none => none
    | some (line, rest) =>
      match takeLineEnd? rest with
      | none => none
      | some after =>
        if after.length < t.length then (lines? after).map (line.toList ++ ·) else none
termination_by t.length

/-- The lines up to the next header, as they are added to a table; and the header and the lines after
it. -/
def splitSection : List Line → List (List Text × Text × Value) × List Line
  | .pair path key v :: rest =>
    let (pairs, others) := splitSection rest
    ((path, key, v) :: pairs, others)
  | lines => ([], lines)

theorem length_splitSection_le (lines : List Line) : (splitSection lines).2.length ≤ lines.length := by
  fun_induction splitSection lines with
  | case1 path key v rest pairs others h ih => rw [h] at ih; simp only [List.length_cons]; exact Nat.le_succ_of_le ih
  | case2 lines => exact Nat.le_refl _

/-- Adds values to a table. -/
def addPairs (pairs : List (List Text × Text × Value)) (members : Members) : Option Members :=
  pairs.foldlM (fun members (path, key, v) => members.add path key v) members

/-- Adds the tables under headers to a document. -/
def addSections (document : Members) : List Line → Option Members
  | [] => some document
  | line :: rest =>
    let fill := addPairs (splitSection rest).1
    let added := match line with
      | .header path key => document.addTable path key fill
      | .arrayHeader path key => document.addToTables path key fill
      | .pair path key v => document.add path key v
    match added with
    | none => none
    | some document => addSections document (splitSection rest).2
termination_by lines => lines.length
decreasing_by
  have := length_splitSection_le rest
  simp only [List.length_cons]
  omega

/-- Reads a document. A byte order mark may begin it. -/
def read? (t : Text) : Option Members := do
  let lines ← lines? ((t.afterStart? ['\uFEFF']).getD t)
  let document ← addPairs (splitSection lines).1 []
  addSections document (splitSection lines).2

end Toml

end KanaTutor
