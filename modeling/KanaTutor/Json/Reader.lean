/-
Reading JSON text: the tokens are put together on a stack of open containers, at most 127 of them.
-/
import KanaTutor.Json.Token

namespace KanaTutor

namespace Json

/-- An open container with what it holds so far: the items of an array, the last one first, or the
members of an object and the key whose value comes next. -/
inductive Frame where
  | array (items : List Value)
  | object (members : List (Text × Value)) (key : Text)

/-- The number of containers that may be open. -/
def maxDepth : Nat := 127

/-- Puts a value into an open container. -/
def Frame.add : Frame → Value → Frame
  | .array items, v => .array (v :: items)
  | .object members key, v => .object (setMember members key v) []

/-- What may come next. -/
inductive Awaited where
  | value
  | valueOrEnd
  | key
  | keyOrEnd
  | colon
  | separator
deriving DecidableEq

/-- What reading one token leads to: nothing, a value that is complete, or more to be read. -/
inductive Step where
  | refused
  | complete (v : Value)
  | open (stack : List Frame) (next : Awaited)

/-- Opens a container. -/
def opened (frame : Frame) (stack : List Frame) (next : Awaited) : Step :=
  if stack.length < maxDepth then .open (frame :: stack) next else .refused

/-- A value is complete. -/
def closed (v : Value) : List Frame → Step
  | [] => .complete v
  | frame :: stack => .open (frame.add v :: stack) .separator

/-- Reads one token. -/
def step (stack : List Frame) : Awaited → Token → Step
  | .value, .atom v | .valueOrEnd, .atom v => closed v stack
  | .value, .openArray | .valueOrEnd, .openArray => opened (.array []) stack .valueOrEnd
  | .value, .openObject | .valueOrEnd, .openObject => opened (.object [] []) stack .keyOrEnd
  | .valueOrEnd, .closeArray | .separator, .closeArray =>
    match stack with
    | .array items :: outer => closed (.array items.reverse) outer
    | _ => .refused
  | .keyOrEnd, .closeObject | .separator, .closeObject =>
    match stack with
    | .object members _ :: outer => closed (.object members) outer
    | _ => .refused
  | .key, .atom (.string key) | .keyOrEnd, .atom (.string key) =>
    match stack with
    | .object members _ :: outer => .open (.object members key :: outer) .colon
    | _ => .refused
  | .colon, .colon => .open stack .value
  | .separator, .comma =>
    match stack with
    | .array _ :: _ => .open stack .value
    | .object _ _ :: _ => .open stack .key
    | [] => .refused
  | _, _ => .refused

/-- The value that tokens stand for; none may be left. -/
def assemble? (stack : List Frame) (awaited : Awaited) : List Token → Option Value
  | [] => none
  | token :: rest =>
    match step stack awaited token with
    | .refused => none
    | .complete v => if rest.isEmpty then some v else none
    | .open stack next => assemble? stack next rest

/-- Reads a value. -/
def read? (t : Text) : Option Value := (tokens? t).bind (assemble? [] .value)

end Json

end KanaTutor
