/-
Durations in whole nanoseconds, below `2 ^ 64` seconds, and their conversion from and to binary64
seconds. An instant is the duration since a start that does not matter.
-/
import KanaTutor.Fault
import KanaTutor.Number.Double

namespace KanaTutor

/-- A duration. -/
structure Duration where
  nanos : Nat
deriving DecidableEq, Repr

namespace Duration

/-- The nanoseconds of a second. -/
def perSecond : Nat := 1000000000

/-- No time. -/
def zero : Duration := ⟨0⟩

/-- A duration of whole seconds. -/
def ofWholeSeconds (n : Nat) : Duration := ⟨n * perSecond⟩

/-- A duration of milliseconds. -/
def ofMillis (n : Nat) : Duration := ⟨n * 1000000⟩

/-- The duration, unless it is too long. -/
def checked (d : Duration) : Except Fault Duration :=
  if d.nanos < wordBound * perSecond then .ok d else .error .durationOverflow

/-- The duration nearest to a number of seconds that is not negative. -/
def ofSeconds (x : Float) : Except Fault Duration :=
  if x == 1.0 / 0.0 then .error .durationOverflow
  else checked ⟨(roundHalfEven (Double.magnitude x * (perSecond : Rat))).toNat⟩

/-- The sum of two durations. -/
def add (d e : Duration) : Except Fault Duration := checked ⟨d.nanos + e.nanos⟩

/-- The longer of two durations. -/
def max (d e : Duration) : Duration := if d.nanos < e.nanos then e else d

/-- The whole seconds of a duration. -/
def wholeSeconds (d : Duration) : Nat := d.nanos / perSecond

/-- The nanoseconds beyond the whole seconds. -/
def subsecond (d : Duration) : Nat := d.nanos % perSecond

/-- The duration in seconds: the whole seconds and the fraction, each rounded, and their sum. -/
def seconds (d : Duration) : Float := Double.ofNat d.wholeSeconds + Double.ofNat d.subsecond / 1e9

/-- The time from one instant to another; none if the other comes first. -/
def since (later earlier : Duration) : Duration := ⟨later.nanos - earlier.nanos⟩

end Duration

/-- A point in time, measured from a fixed start. -/
abbrev Instant := Duration

end KanaTutor
