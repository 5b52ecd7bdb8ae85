/-
Layout descriptions: what a layout makes of the keys of a keyboard, read from a JSON object. An entry
of the wrong type is passed over by itself.
-/
import KanaTutor.Json.Reader
import KanaTutor.Keyboard.Board

namespace KanaTutor

/-- What is typed: romaji, or kana by their own keys. -/
inductive LayoutKind where
  | romaji
  | kana
deriving DecidableEq, Repr

/-- A layout description: the modifier key that acts as the space bar, the two conversion keys, whether
the space bar shifts the key after it, and the legends to replace, without and with shift. -/
structure Description where
  space : Option Text := none
  henkan : Option NamedKey := none
  muhenkan : Option NamedKey := none
  prefixShift : Bool := false
  kind : LayoutKind := .romaji
  normal : List (Text × Text) := []
  shift : List (Text × Text) := []
deriving DecidableEq, Repr

namespace Description

/-- The members that are strings. -/
def stringMembers (members : List (Text × Json.Value)) : List (Text × Text) :=
  members.filterMap fun
    | (key, .string t) => some (key, t)
    | _ => none

/-- The description with one entry more. -/
def addEntry (d : Description) (key : Text) (v : Json.Value) : Description :=
  match String.ofList key, v with
  | "Space", .string t => { d with space := some t }
  | "Henkan", .string t => { d with henkan := some (.ofSymbol t) }
  | "Muhenkan", .string t => { d with muhenkan := some (.ofSymbol t) }
  | "Prefix", .bool b => { d with prefixShift := b }
  | "Type", .string t => { d with kind := if t = "Kana".toList then .kana else .romaji }
  | "Normal", .object members => { d with normal := stringMembers members }
  | "Shift", .object members => { d with shift := stringMembers members }
  | _, _ => d

/-- Reads a description. The text must be a JSON object. -/
def read? (t : Text) : Option Description :=
  match Json.read? t with
  | some (.object members) => some (members.foldl (fun d (key, v) => d.addEntry key v) {})
  | _ => none

/-- The legend of the key that a conversion entry names. -/
def legendOf (entry : Option NamedKey) : Option Text := entry.bind NamedKey.legend?

/-- What replaces a legend. -/
def replacement? (replaced : List (Text × Text)) (legend : Text) : Option Text :=
  (replaced.find? (·.1 = legend)).map (·.2)

end Description

end KanaTutor
