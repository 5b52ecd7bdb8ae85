/-
What ends the program on the spot: an arithmetic result that has no place to go.
-/

namespace KanaTutor

/-- A fault. -/
inductive Fault where
  /-- A duration of `2 ^ 64` seconds or more. -/
  | durationOverflow
  /-- A list with more items than memory can address. -/
  | capacityOverflow
deriving DecidableEq, Repr

end KanaTutor
