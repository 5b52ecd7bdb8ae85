/-
The generator xoshiro256++, seeded from one word by a 32-bit permuted congruential generator. A choice
among `n` things is the high half of the product of `n` and a random word; the words whose product has
a low half beyond a bound are passed over, so that no choice is favoured.
-/
import KanaTutor.Number.Natural
import KanaTutor.Random.Source

namespace KanaTutor

/-- The state of the generator. -/
structure Xoshiro where
  a : UInt64
  b : UInt64
  c : UInt64
  d : UInt64
deriving DecidableEq, Repr

namespace Xoshiro

/-- Rotates a word to the left. -/
def rotate (x : UInt64) (n : UInt64) : UInt64 := (x <<< n) ||| (x >>> (64 - n))

/-! ## Seeding -/

/-- The next state of the seeding generator. -/
def seedStep (s : UInt64) : UInt64 := s * 6364136223846793005 + 11634580027462260723

/-- The 32-bit word that a state of the seeding generator gives. -/
def seedWord (s : UInt64) : UInt32 :=
  let x := (((s >>> 18) ^^^ s) >>> 27).toUInt32
  let n := (s >>> 59).toUInt32
  (x >>> n) ||| (x <<< ((32 - n) % 32))

/-- Two words of the seeding generator as one, the first as the low half. -/
def seedPair (s : UInt64) : UInt64 × UInt64 :=
  let low := seedStep s
  let high := seedStep low
  ((seedWord low).toUInt64 ||| ((seedWord high).toUInt64 <<< 32), high)

/-- The generator with a seed. -/
def ofSeed (seed : UInt64) : Xoshiro :=
  let (a, s) := seedPair seed
  let (b, s) := seedPair s
  let (c, s) := seedPair s
  let (d, _) := seedPair s
  ⟨a, b, c, d⟩

/-! ## Drawing -/

/-- The next random word. -/
def next (g : Xoshiro) : UInt64 × Xoshiro :=
  let word := rotate (g.a + g.d) 23 + g.a
  let c := g.c ^^^ g.a
  let d := g.d ^^^ g.b
  (word, ⟨g.a ^^^ d, g.b ^^^ c, c ^^^ (g.b <<< 17), rotate d 45⟩)

/-- The largest low half of a product that is accepted: one less than `n` shifted up to the highest bit
of a word. -/
def zone (n : Nat) : Nat := n <<< (63 - n.log2) - 1

/-- Draws until a product is accepted, at most `tries` times; about every second product is. -/
def below (n : Nat) (n_pos : 0 < n) (g : Xoshiro) : Nat → Fin n × Xoshiro
  | 0 => (⟨0, n_pos⟩, g)
  | tries + 1 =>
    let (word, g) := g.next
    let product := word.toNat * n
    if product % wordBound ≤ zone n then
      (⟨product / wordBound, by
        have : word.toNat < wordBound := word.toNat_lt
        exact Nat.div_lt_of_lt_mul (Nat.mul_lt_mul_of_pos_right this n_pos)⟩, g)
    else below n n_pos g tries

instance : ChoiceSource Xoshiro where
  choose g n := below (n + 1) (Nat.succ_pos n) g 4096

end Xoshiro

end KanaTutor
