/-
The result of a round: speed and accuracy, the score they give, and its stars. Speed and accuracy are
binary64 numbers, computed in the order that is written here.
-/
import KanaTutor.Time.Duration

namespace KanaTutor

/-- The keystrokes that a round needs, those it took, and its time. -/
structure RoundResult where
  correct : Nat
  touches : Nat
  duration : Duration
deriving DecidableEq, Repr

namespace RoundResult

/-- The best score. -/
def maxScore : Nat := 10

/-- The number of filled stars that a score can show; the others are bonus stars. -/
def maxFilledStars : Nat := 6

/-- The keystrokes in excess. -/
def errors (r : RoundResult) : Nat := r.touches - r.correct

/-- Characters per minute. -/
def charsPerMinute (r : RoundResult) : Float :=
  let secs := r.duration.seconds
  if secs ≤ 0.0 then 0.0 else Double.ofNat (min r.correct r.touches) * 60.0 / secs

/-- Words per minute, a word taken as five keystrokes; at most a 32-bit word. -/
def wordsPerMinute (r : RoundResult) : Nat := (r.charsPerMinute / 5.0).toUInt32.toNat

/-- The part of the keystrokes that was not in excess. -/
def accuracy (r : RoundResult) : Float :=
  if r.touches = 0 then 0.0 else max (1.0 - Double.ofNat r.errors / Double.ofNat r.touches) 0.0

/-- The score: a point for every `perStar` words per minute, weighted by the accuracy above what is
asked for at least. -/
def score (r : RoundResult) (minAccuracy : Float) (perStar : Nat) : Nat :=
  let weight := min (minAccuracy + r.accuracy) 1.0
  let points := (Double.ofNat r.wordsPerMinute * weight / Double.ofNat (max perStar 1)).toUInt32.toNat
  min points maxScore

/-- The filled stars of a score, and its bonus stars. -/
def stars (score : Nat) : Nat × Nat :=
  let score := min score maxScore
  let filled := min score maxFilledStars
  (filled, score - filled)

end RoundResult

end KanaTutor
