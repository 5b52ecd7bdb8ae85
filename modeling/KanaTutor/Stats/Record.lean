/-
Records of finished rounds, one on a line of the log: when the round was finished, its lesson, its
time, and the keystrokes that it needs and those it took.
-/
import KanaTutor.Practice.Result
import KanaTutor.Time.Timestamp

namespace KanaTutor

/-- A record. -/
structure Record where
  timestamp : Timestamp
  lesson : Text
  duration : Duration
  correct : Nat
  touches : Nat
deriving DecidableEq

namespace Record

/-- A lesson name that fits on one line, between double quotes. -/
def sanitize (lesson : Text) : Text :=
  lesson.map fun c => if c = '"' then '\'' else if isControl c then ' ' else c

/-- The record of a round. -/
def ofRound (timestamp : Timestamp) (lesson : Text) (r : RoundResult) : Record :=
  ⟨timestamp.toWholeSecond, sanitize lesson, r.duration, r.correct, r.touches⟩

/-! ## Writing -/

/-- A number of seconds as minutes and seconds, with one decimal place. -/
def writeTime (seconds : Float) : Text :=
  let whole := (seconds / 60.0).toUInt64.toNat
  let exact := Double.magnitude seconds
  let rest := exact - 60 * (exact / 60).floor
  Natural.writePadded 2 whole ++ ':' :: Natural.padStart '0' 4 (writeFixed 1 rest)

/-- The line of a record, without a line break. -/
def write (r : Record) : Text :=
  r.timestamp.write ++ ",\"".toList ++ r.lesson ++ "\",".toList ++ writeTime r.duration.seconds ++
    ',' :: Natural.write r.correct ++ ',' :: Natural.write r.touches

/-! ## Reading -/

/-- Why a line is no record. -/
inductive ReadError where
  /-- The line does not have the form of a record. -/
  | malformed (line : Text)
  /-- The line has the form of a record, but its numbers make the reader fail. -/
  | fault (f : Fault)
deriving DecidableEq

/-- What is said about a line that is no record. -/
def malformedMessage (line : Text) : Text := "malformed stats record: ".toList ++ line

/-- Reads minutes and seconds. Minutes are counted in seconds by a 64-bit word. -/
def readTime? (t : Text) : Option (Except Fault Duration) := do
  let (minutes, seconds) ← t.cutAt ':'
  if seconds.contains ':' then none
  else
    let minutes ← Natural.readWord? minutes.trim
    let seconds ← Double.read? seconds.trim
    if seconds.isFinite && 0.0 ≤ seconds then
      some do
        let rest ← Duration.ofSeconds seconds
        (Duration.ofWholeSeconds (minutes * 60 % wordBound)).add rest
    else none

/-- The text without double quotes around it. -/
def unquoted (t : Text) : Text := ((t.afterStart? ['"']).bind fun rest => rest.beforeEnd? ['"']).getD t

/-- The five fields of a line: the lesson is all that stands between the first comma and the last
three fields, commas included. -/
def fields? (line : Text) : Option (Text × Text × Text × Text × Text) := do
  let (timestamp, rest) ← line.cutAt ','
  let (rest, touches) ← rest.cutAtLast ','
  let (rest, correct) ← rest.cutAtLast ','
  let (lesson, time) ← rest.cutAtLast ','
  some (timestamp, lesson, time, correct, touches)

/-- Reads a line. -/
def read (line : Text) : Except ReadError Record :=
  let line := line.trim
  let parts := do
    let (timestamp, lesson, time, correct, touches) ← fields? line
    let timestamp ← Timestamp.read? timestamp
    let duration ← readTime? time
    some (timestamp, unquoted lesson.trim, duration, Natural.readWord? correct.trim, Natural.readWord? touches.trim)
  match parts with
  | none => .error (.malformed line)
  | some (_, _, .error f, _, _) => .error (.fault f)
  | some (timestamp, lesson, .ok duration, some correct, some touches) =>
    .ok ⟨timestamp, lesson, duration, correct, touches⟩
  | some _ => .error (.malformed line)

end Record

end KanaTutor
