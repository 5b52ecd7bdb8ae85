/-
Sources of random choices. A source chooses one of a number of things, at least one, and goes on as
another source.
-/

namespace KanaTutor

/-- A source of choices: `choose s n` is one of `n + 1` things, and the source after it. -/
class ChoiceSource (σ : Type) where
  choose : σ → (n : Nat) → Fin (n + 1) × σ

end KanaTutor
