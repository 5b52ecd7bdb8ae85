/-
The practice of one day: the sums of its rounds, and the speed and accuracy that they make.
-/
import KanaTutor.Stats.Record

namespace KanaTutor

/-- The totals of a day, the counts in 64-bit words. -/
structure Day where
  date : Date
  duration : Duration := .zero
  correct : Nat := 0
  touches : Nat := 0
deriving DecidableEq

namespace Day

/-- Adds a round. A round that took fewer keystrokes than it needs is taken to have needed no more. -/
def add (d : Day) (r : Record) : Except Fault Day := do
  let duration ← d.duration.add r.duration
  .ok { d with
    duration
    correct := (d.correct + r.correct) % wordBound
    touches := (d.touches + max r.touches r.correct) % wordBound }

/-- Words per minute, a word taken as five keystrokes; at most a 32-bit word. -/
def wordsPerMinute (d : Day) : Nat :=
  let secs := d.duration.seconds
  if 0.0 < secs then (Double.ofNat d.correct * 60.0 / secs / 5.0).toUInt32.toNat else 0

/-- The part of the keystrokes that was needed, in whole hundredths. -/
def accuracy (d : Day) : Float :=
  if 0 < d.touches then
    Double.roundHalfUp (Double.ofNat d.correct / Double.ofNat d.touches * 100.0) / 100.0
  else 0.0

end Day

end KanaTutor
