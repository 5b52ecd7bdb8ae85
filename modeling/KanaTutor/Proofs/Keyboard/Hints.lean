/-
The hints of a text, one after the other. Each is for the front of what is left, takes at least one character of it
and no more than there are; so the hints come to an end with the text. What they show is the text, and what they type
is what the text is typed with as a whole, however many morae a hint takes at once. The keystrokes counted for a text
are those of its hints, and the one that settles a final `n`.
-/
import KanaTutor.Keyboard.Hint
import KanaTutor.Proofs.Kana.LocalKeys
import Mathlib.Algebra.GroupWithZero.Nat

namespace KanaTutor

/-! ## Characters a mora takes -/

theorem consumed_lengthen_le {m : Mora} {t : Text} (h : m.consumed ≤ t.length) :
    (m.lengthen t).consumed ≤ t.length := by
  unfold Mora.lengthen
  split
  · rename_i hmark _
    obtain ⟨hlt, -⟩ := List.getElem?_eq_some_iff.1 hmark
    exact hlt
  · exact h

namespace Romanizer

variable {r : Romanizer}

theorem consumed_bareMora?_le {t : Text} {m : Mora} (h : r.bareMora? t = some m) : m.consumed ≤ t.length := by
  fun_induction bareMora? r t generalizing m with
  | case1 => cases h
  | case2 rest hnext =>
    cases h
    simp [Mora.single]
  | case3 rest hnext next hbare ih =>
    cases h
    have := consumed_lengthen_le (ih hbare)
    simpa [Mora.after] using this
  | case4 rest hnext hbare ih =>
    cases h
    simp [Mora.single]
  | case5 rest consonant hdouble ih =>
    obtain ⟨next, hnext, rfl⟩ := Option.map_eq_some_iff.1 h
    simpa [Mora.after] using ih hnext
  | case6 rest hdouble =>
    cases h
    simp [Mora.single]
  | case7 first rest hn hs romaji hdigraph =>
    cases h
    -- a digraph has a second character
    cases rest with
    | nil => cases hdigraph
    | cons second rest => simp
  | case8 first rest hn hs hdigraph =>
    cases h
    simp [Mora.single]

theorem consumed_mora?_le {t : Text} {m : Mora} (h : r.mora? t = some m) : m.consumed ≤ t.length := by
  obtain ⟨bare, hbare, rfl⟩ := Option.map_eq_some_iff.1 h
  exact consumed_lengthen_le (consumed_bareMora?_le hbare)

theorem keys_of_mora? {c : Char} {t : Text} {m : Mora} (h : r.mora? (c :: t) = some m) :
    r.keys (c :: t) = hyphenize m.romaji ++ r.keys ((c :: t).drop m.consumed) := by
  rw [keys, romanize, morae_of_mora? h, List.flatMap_cons, hyphenize_append]
  rfl

end Romanizer

namespace Typing

variable {typing : Typing}

/-! ## One hint -/

/-- The keys that a whole text is typed with. -/
def keys (typing : Typing) (t : Text) : Text :=
  match typing.layout.kind with
  | .romaji => hyphenize (typing.romanizer.romanize t)
  | .kana => t.flatMap typing.kanaKeys

theorem keys_romaji (h : typing.layout.kind = .romaji) (t : Text) : typing.keys t = typing.romanizer.keys t := by
  rw [keys, h]
  rfl

theorem keys_kana (h : typing.layout.kind = .kana) (t : Text) : typing.keys t = t.flatMap typing.kanaKeys := by
  rw [keys, h]

theorem keys_nil (typing : Typing) : typing.keys [] = [] := by
  cases h : typing.layout.kind with
  | romaji => rw [keys_romaji h, Romanizer.keys_eq_wordsAfter, Romanizer.wordsAfter]
  | kana => rw [keys_kana h, List.flatMap_nil]

/-- What is typed next is the front of what is typed as a whole. -/
theorem next?_cons (typing : Typing) (c : Char) (t : Text) : ∃ n sequence,
    typing.next? (c :: t) = some (n, sequence) ∧ 1 ≤ n ∧ n ≤ (c :: t).length ∧
      typing.keys (c :: t) = sequence ++ typing.keys ((c :: t).drop n) := by
  cases h : typing.layout.kind with
  | romaji =>
    obtain ⟨m, hm⟩ := Romanizer.mora?_cons typing.romanizer c t
    refine ⟨m.consumed, hyphenize m.romaji, ?_, m.consumed_pos, Romanizer.consumed_mora?_le hm, ?_⟩
    · rw [next?, h]
      dsimp only
      rw [hm, Option.map_some]
    · rw [keys_romaji h, keys_romaji h, Romanizer.keys_of_mora? hm]
  | kana =>
    refine ⟨1, typing.kanaKeys c, ?_, Nat.le_refl 1, by simp, ?_⟩
    · rw [next?, h]
      rfl
    · rw [keys_kana h, keys_kana h, List.flatMap_cons, List.drop_one, List.tail_cons]

theorem hint_cons (typing : Typing) (c : Char) (t : Text) : ∃ h, typing.hint (c :: t) = h ∧
    1 ≤ h.consumed ∧ h.consumed ≤ (c :: t).length ∧
    h.literal = ((c :: t).take h.consumed).map (fun c => if c = '\n' then returnSymbol else c) ∧
    typing.keys (c :: t) = h.sequence ++ typing.keys ((c :: t).drop h.consumed) := by
  obtain ⟨n, sequence, hnext, hpos, hle, hkeys⟩ := next?_cons typing c t
  refine ⟨_, rfl, ?_⟩
  unfold hint
  rw [hnext]
  exact ⟨hpos, hle, rfl, hkeys⟩

theorem consumed_hint (typing : Typing) {t : Text} (h : t ≠ []) :
    1 ≤ (typing.hint t).consumed ∧ (typing.hint t).consumed ≤ t.length := by
  cases t with
  | nil => exact absurd rfl h
  | cons c t =>
    obtain ⟨_, rfl, hpos, hle, -⟩ := hint_cons typing c t
    exact ⟨hpos, hle⟩

/-! ## All hints -/

/-- The hints of a text: that for its front, and those of what it leaves. -/
def hints (typing : Typing) (t : Text) : List Hint :=
  if _h : t = [] then [] else typing.hint t :: typing.hints (t.drop (typing.hint t).consumed)
termination_by t.length
decreasing_by
  have := consumed_hint typing _h
  rw [List.length_drop]
  omega

theorem hints_nil (typing : Typing) : typing.hints [] = [] := by
  rw [hints, dif_pos rfl]

theorem hints_cons (typing : Typing) (c : Char) (t : Text) : typing.hints (c :: t) =
    typing.hint (c :: t) :: typing.hints ((c :: t).drop (typing.hint (c :: t)).consumed) := by
  rw [hints, dif_neg (List.cons_ne_nil c t)]

/-- Induction along the hints: what a hint leaves is shorter. -/
@[elab_as_elim]
theorem hint_induction {motive : Text → Prop} (typing : Typing) (t : Text) (nil : motive [])
    (cons : ∀ c t, motive ((c :: t).drop (typing.hint (c :: t)).consumed) → motive (c :: t)) : motive t := by
  induction t using hints.induct typing with
  | case1 => exact nil
  | case2 t h ih =>
    cases t with
    | nil => exact absurd rfl h
    | cons c t => exact cons c t ih

theorem consumed_hints (typing : Typing) (t : Text) : ((typing.hints t).map Hint.consumed).sum = t.length := by
  induction t using hint_induction typing with
  | nil => simp [hints_nil]
  | cons c t ih =>
    obtain ⟨h, rfl, -, hle, -⟩ := hint_cons typing c t
    rw [hints_cons, List.map_cons, List.sum_cons, ih, List.length_drop]
    omega

theorem literal_hints (typing : Typing) (t : Text) :
    (typing.hints t).flatMap Hint.literal = t.map fun c => if c = '\n' then returnSymbol else c := by
  induction t using hint_induction typing with
  | nil => simp [hints_nil]
  | cons c t ih =>
    obtain ⟨h, rfl, -, -, hliteral, -⟩ := hint_cons typing c t
    rw [hints_cons, List.flatMap_cons, ih, hliteral, ← List.map_append, List.take_append_drop]

theorem sequence_hints (typing : Typing) (t : Text) : (typing.hints t).flatMap Hint.sequence = typing.keys t := by
  induction t using hint_induction typing with
  | nil => simp [hints_nil, keys_nil]
  | cons c t ih =>
    obtain ⟨h, rfl, -, -, -, hkeys⟩ := hint_cons typing c t
    rw [hints_cons, List.flatMap_cons, ih, hkeys]

/-! ## Counting -/

theorem keyCount_eq_length_keys (typing : Typing) (t : Text) : typing.keyCount t =
    (typing.keys t).length +
      if typing.layout.kind = .romaji ∧ (typing.keys t).getLast? = some 'n' then 1 else 0 := by
  cases h : typing.layout.kind with
  | romaji =>
    rw [keyCount, h, keys_romaji h]
    simp [Romanizer.keyCount]
  | kana =>
    rw [keyCount, h, keys_kana h]
    simp

/-- The hints of a text take all its characters, at least one and no more than there are at each step. They show the
text with its line breaks as symbols, and type what is typed for the text as a whole: its hyphenized romaji, or its
kana each with its mark. The keystrokes counted for the text are theirs, and one more exactly if the keys of a romaji
layout end in `n`. -/
theorem hints_agree (typing : Typing) (t : Text) :
    (∀ rest : Text, rest ≠ [] → 1 ≤ (typing.hint rest).consumed ∧ (typing.hint rest).consumed ≤ rest.length) ∧
      ((typing.hints t).map Hint.consumed).sum = t.length ∧
      ((typing.hints t).flatMap Hint.literal = t.map fun c => if c = '\n' then returnSymbol else c) ∧
      ((typing.hints t).flatMap Hint.sequence =
        match typing.layout.kind with
        | .romaji => hyphenize (typing.romanizer.romanize t)
        | .kana => t.flatMap typing.kanaKeys) ∧
      typing.keyCount t = ((typing.hints t).map fun h => h.sequence.length).sum +
        if typing.layout.kind = .romaji ∧ ((typing.hints t).flatMap Hint.sequence).getLast? = some 'n' then 1
        else 0 := by
  refine ⟨fun rest hrest => consumed_hint typing hrest, consumed_hints typing t, literal_hints typing t,
    sequence_hints typing t, ?_⟩
  rw [keyCount_eq_length_keys, ← sequence_hints, List.length_flatMap]

end Typing

end KanaTutor
