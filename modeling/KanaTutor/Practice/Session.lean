/-
One attempt at a target: the text typed so far, what the input method has not yet committed, the
keystrokes, and the clock. The clock starts with the first input and stops when the target is matched.
-/
import KanaTutor.Text.Basic
import KanaTutor.Time.Duration

namespace KanaTutor

/-! ## Uncommitted text -/

/-- How a part of uncommitted text is shown. -/
inductive PreeditStyle where
  | underline
  | reverse
deriving DecidableEq, Repr

/-- A style over the characters from `start` to before `stop`. -/
structure PreeditSpan where
  start : Nat
  stop : Nat
  style : PreeditStyle
deriving DecidableEq, Repr

/-- The text that an input method has not yet committed. -/
structure Preedit where
  text : Text := []
  spans : List PreeditSpan := []
  cursor : Nat := 0
deriving DecidableEq, Repr

/-! ## Sessions -/

/-- An attempt. -/
structure Session where
  typed : Text := []
  preedit : Preedit := {}
  startedAt : Option Instant := none
  finishedAt : Option Instant := none
  touches : Nat := 0
deriving DecidableEq, Repr

namespace Session

/-- A round is given up after this time. -/
def timeLimit : Duration := .ofWholeSeconds (59 * 60)

/-- Nothing is typed or pending. -/
def isEmpty (s : Session) : Bool := s.typed.isEmpty && s.preedit.text.isEmpty

/-- The target is typed, and nothing is pending. -/
def isMatch (s : Session) (plain : Text) : Bool := s.typed = plain && s.preedit.text.isEmpty

/-! ## Edits -/

/-- What follows an edit of `before` to `after`: the first input starts the clock, and a session that
becomes empty starts anew. -/
def settle (before after : Session) (now : Instant) : Session :=
  match before.isEmpty, after.isEmpty with
  | false, true => {}
  | true, false => { after with startedAt := some now, finishedAt := none }
  | _, _ => after

/-- Types a text. -/
def append (s : Session) (t : Text) (now : Instant) : Session :=
  settle s { s with typed := s.typed ++ t } now

/-- Sets what is pending. -/
def setPreedit (s : Session) (p : Preedit) (now : Instant) : Session :=
  settle s { s with preedit := p } now

/-- Takes back the last character. -/
def backspace (s : Session) : Session :=
  if s.typed.isEmpty then s
  else
    let after := { s with typed := s.typed.dropLast }
    if after.isEmpty then {} else after

/-- Removes `count` characters from the place `offset` characters past the end of the typed text; the
clock runs on even if nothing is left. Nothing happens unless they all exist. -/
def delete? (s : Session) (offset : Int) (count : Nat) : Option Session :=
  let start := (s.typed.length : Int) + offset
  if 0 ≤ start ∧ start + count ≤ s.typed.length then
    some { s with typed := s.typed.take start.toNat ++ s.typed.drop (start.toNat + count) }
  else none

/-- Counts a keystroke. -/
def touch (s : Session) : Session := { s with touches := s.touches + 1 }

/-! ## The clock -/

/-- Looks at the clock: the session remembers since when the target has been matched, and forgets it
when the match is broken. -/
def poll (s : Session) (plain : Text) (now : Instant) : Session :=
  match s.startedAt with
  | none => s
  | some _ => { s with finishedAt := if s.isMatch plain then some (s.finishedAt.getD now) else none }

/-- The time taken, for a session that has just been polled. -/
def elapsed (s : Session) (now : Instant) : Duration :=
  match s.startedAt with
  | none => .zero
  | some start => (s.finishedAt.getD now).since start

/-- The target has been matched for at least `grace`, for a session that has just been polled. -/
def isFinished (s : Session) (grace : Duration) (now : Instant) : Bool :=
  match s.finishedAt with
  | none => false
  | some finish => grace.nanos ≤ (now.since finish).nanos

/-- The round has taken too long, for a session that has just been polled. -/
def isTimedOut (s : Session) (now : Instant) : Bool := timeLimit.nanos ≤ (s.elapsed now).nanos

end Session

end KanaTutor
