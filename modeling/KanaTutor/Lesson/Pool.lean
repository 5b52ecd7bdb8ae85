/-
Pools of lines for random rounds. A round takes lines out of its pool, so that none comes twice.
-/
import KanaTutor.Fault
import KanaTutor.Number.Natural
import KanaTutor.Random.Source
import KanaTutor.Text.Blank

namespace KanaTutor

/-- The lines that are left, how many make a round, and how many rounds are to come. -/
structure Pool where
  lines : List Text := []
  perRound : Nat := 0
  roundsLeft : Nat := 0
deriving DecidableEq, Repr

namespace Pool

/-- The lines of a text. A round takes at least one line and at most all; all if no number is given. -/
def ofText (t : Text) (perRound : Option Nat) (rounds : Nat) : Pool :=
  let lines := t.lines
  ⟨lines, min (max (perRound.getD lines.length) 1) lines.length, rounds⟩

/-- Another round can be drawn. -/
def hasNextRound (pool : Pool) : Bool := 0 < pool.roundsLeft && !pool.lines.isEmpty && 0 < pool.perRound

/-- Takes out the item at a position; the last item moves to its place. -/
def swapRemove {α : Type} (items : List α) (i : Fin items.length) : α × List α :=
  let last := items.getLast (List.ne_nil_of_length_pos i.pos)
  (items[i], (items.set i last).dropLast)

/-- Takes out up to `n` random lines: those taken in order, those left, and the source after. -/
def takeLines {σ : Type} [ChoiceSource σ] : Nat → List Text → σ → List Text × List Text × σ
  | 0, lines, source => ([], lines, source)
  | _ + 1, [], source => ([], [], source)
  | n + 1, first :: rest, source =>
    let (i, source) := ChoiceSource.choose source rest.length
    let (line, left) := swapRemove (first :: rest) i
    let (taken, left, source) := takeLines n left source
    (line :: taken, left, source)

/-- Draws up to `n` lines, joined by spaces. -/
def draw {σ : Type} [ChoiceSource σ] (pool : Pool) (n : Nat) (source : σ) : Text × Pool × σ :=
  let (taken, left, source) := takeLines n pool.lines source
  (Text.trim (List.intercalate [' '] taken), { pool with lines := left }, source)

/-- The items that a list may have room for: each takes 24 octets of a 63-bit address space. -/
def maxCapacity : Nat := (signedBound - 1) / 24

/-- Draws up to `n` lines after making room for `n`. -/
def pick {σ : Type} [ChoiceSource σ] (pool : Pool) (n : Nat) (source : σ) : Except Fault (Text × Pool × σ) :=
  if maxCapacity < n then .error .capacityOverflow else .ok (pool.draw n source)

/-- Draws the text of the next round. -/
def nextRound? {σ : Type} [ChoiceSource σ] (pool : Pool) (source : σ) : Option (Text × Pool × σ) :=
  if pool.hasNextRound then
    some ({ pool with roundsLeft := pool.roundsLeft - 1 }.draw pool.perRound source)
  else none

end Pool

end KanaTutor
