/-
Rounds that are drawn from a pool. A line that is taken out is not put back, so the lines of all rounds, and those that
are left, are the lines of the text. How many rounds there are follows from the number of lines alone: every round but
the last takes as many as it should.

A round never asks for room for more lines than the text has. A draw of any other number asks for as much room as the
number says, even where there are fewer lines, and fails if no list can have that much.
-/
import KanaTutor.Lesson.Pool
import KanaTutor.Random.Xoshiro
import Mathlib.Algebra.Order.Floor.Div
import Mathlib.Data.List.Perm.Basic
import Mathlib.Logic.Relation

namespace KanaTutor.Pool

variable {σ : Type} [ChoiceSource σ]

/-! ## Lines that are taken out -/

/-- The item that is taken out and those that are left are what there was before. -/
theorem perm_swapRemove {α : Type} (items : List α) (i : Fin items.length) :
    ((swapRemove items i).1 :: (swapRemove items i).2).Perm items := by
  have hne : items ≠ [] := List.ne_nil_of_length_pos i.pos
  have hset : items.set i (items.getLast hne) ≠ [] := by simpa using hne
  -- the last place holds the last item, also where that is the one to take out
  have hlast : (items.set i (items.getLast hne)).getLast hset = items.getLast hne := by
    rw [List.getLast_eq_getElem, List.getElem_set]
    split
    · rfl
    · simp [List.getLast_eq_getElem]
  have hleft : ((items.set i (items.getLast hne)).dropLast).Perm (items.eraseIdx i) := by
    have hmoved := List.set_perm_cons_eraseIdx i.isLt (items.getLast hne)
    rw [← List.dropLast_append_getLast hset, hlast] at hmoved
    exact ((List.perm_append_singleton ..).symm.trans hmoved).cons_inv
  exact (hleft.cons _).trans (List.getElem_cons_eraseIdx_perm i.isLt)

theorem takeLines_cons (n : Nat) (first : Text) (rest : List Text) (source : σ) :
    takeLines (n + 1) (first :: rest) source =
      let chosen := ChoiceSource.choose source rest.length
      let removed := swapRemove (first :: rest) chosen.1
      let more := takeLines n removed.2 chosen.2
      (removed.1 :: more.1, more.2) := rfl

theorem perm_takeLines (n : Nat) (lines : List Text) (source : σ) :
    ((takeLines n lines source).1 ++ (takeLines n lines source).2.1).Perm lines := by
  induction n generalizing lines source with
  | zero => exact .refl _
  | succ n ih =>
    cases lines with
    | nil => exact .refl _
    | cons first rest =>
      rw [takeLines_cons, List.cons_append]
      exact ((ih _ _).cons _).trans (perm_swapRemove ..)

theorem length_takeLines (n : Nat) (lines : List Text) (source : σ) :
    (takeLines n lines source).1.length = min n lines.length := by
  induction n generalizing lines source with
  | zero => exact (Nat.zero_min _).symm
  | succ n ih =>
    cases lines with
    | nil => exact (Nat.min_zero _).symm
    | cons first rest =>
      have hleft := (perm_swapRemove (first :: rest) (ChoiceSource.choose source rest.length).1).length_eq
      rw [List.length_cons, List.length_cons] at hleft
      rw [takeLines_cons, List.length_cons, ih, List.length_cons]
      omega

/-! ## Draws -/

/-- The text that is made of lines. -/
def joined (lines : List Text) : Text := Text.trim (List.intercalate [' '] lines)

/-- Lines that are drawn from a pool, up to `n`, and the pool without them. -/
structure Drawn (pool : Pool) (n : Nat) (taken : List Text) (left : Pool) : Prop where
  length : taken.length = min n pool.lines.length
  perm : (taken ++ left.lines).Perm pool.lines
  perRound : left.perRound = pool.perRound
  roundsLeft : left.roundsLeft = pool.roundsLeft

theorem draw_drawn (pool : Pool) (n : Nat) (source : σ) :
    ∃ taken left after, pool.draw n source = (joined taken, left, after) ∧ pool.Drawn n taken left :=
  ⟨_, _, _, rfl, length_takeLines n pool.lines source, perm_takeLines n pool.lines source, rfl, rfl⟩

theorem Drawn.length_left {pool left : Pool} {n : Nat} {taken : List Text} (h : pool.Drawn n taken left) :
    left.lines.length = pool.lines.length - n := by
  have hlength := h.perm.length_eq
  rw [List.length_append, h.length] at hlength
  omega

/-! ## Rounds -/

/-- Lines can make rounds: there are none, or a round takes at least one. -/
def IsFair (pool : Pool) : Prop := pool.lines = [] ∨ 0 < pool.perRound

theorem isFair_ofText (t : Text) (perRound : Option Nat) (rounds : Nat) : (ofText t perRound rounds).IsFair := by
  show t.lines = [] ∨ 0 < min (max (perRound.getD t.lines.length) 1) t.lines.length
  rcases List.eq_nil_or_concat' t.lines with hnil | ⟨front, last, hlines⟩
  · exact .inl hnil
  · rw [hlines, List.length_append, List.length_singleton]
    omega

theorem hasNextRound_iff {pool : Pool} (h : pool.IsFair) :
    pool.hasNextRound = true ↔ 0 < pool.roundsLeft ∧ pool.lines ≠ [] := by
  unfold hasNextRound
  simp only [Bool.and_eq_true, decide_eq_true_eq, Bool.not_eq_true', List.isEmpty_eq_false_iff]
  constructor
  · rintro ⟨hboth, -⟩
    exact hboth
  · rintro ⟨hrounds, hlines⟩
    exact ⟨⟨hrounds, hlines⟩, h.resolve_left hlines⟩

/-- A pool gives a round, and there is one less to come. -/
theorem nextRound_some {pool next : Pool} {source after : σ} {t : Text}
    (h : pool.nextRound? source = some (t, next, after)) :
    pool.hasNextRound = true ∧ ∃ taken, t = joined taken ∧
      ({ pool with roundsLeft := pool.roundsLeft - 1 } : Pool).Drawn pool.perRound taken next := by
  unfold nextRound? at h
  split at h
  · rename_i hnext
    obtain ⟨taken, left, after', hdraw, hdrawn⟩ :=
      draw_drawn { pool with roundsLeft := pool.roundsLeft - 1 } pool.perRound source
    rw [hdraw] at h
    cases h
    exact ⟨hnext, taken, rfl, hdrawn⟩
  · cases h

theorem roundsLeft_lt {pool next : Pool} {source after : σ} {t : Text}
    (h : pool.nextRound? source = some (t, next, after)) : next.roundsLeft < pool.roundsLeft := by
  obtain ⟨hnext, taken, -, hdrawn⟩ := nextRound_some h
  have hrounds : 0 < pool.roundsLeft := by
    simp only [hasNextRound, Bool.and_eq_true, decide_eq_true_eq] at hnext
    exact hnext.1.1
  rw [hdrawn.roundsLeft]
  show pool.roundsLeft - 1 < pool.roundsLeft
  omega

/-- Draws rounds until there is none: their texts, the pool that is left, and the source after them. -/
def drawAll (pool : Pool) (source : σ) : List Text × Pool × σ :=
  match _ : pool.nextRound? source with
  | none => ([], pool, source)
  | some (t, next, after) =>
    let (texts, last) := drawAll next after
    (t :: texts, last)
termination_by pool.roundsLeft
decreasing_by exact roundsLeft_lt ‹_›

theorem drawAll_of_none {pool : Pool} {source : σ} (h : pool.nextRound? source = none) :
    pool.drawAll source = ([], pool, source) := by
  rw [drawAll]
  split
  · rfl
  · rename_i hsome
    rw [h] at hsome
    cases hsome

theorem drawAll_of_some {pool next : Pool} {source after : σ} {t : Text}
    (h : pool.nextRound? source = some (t, next, after)) :
    pool.drawAll source = (t :: (next.drawAll after).1, (next.drawAll after).2) := by
  rw [drawAll]
  split
  · rename_i hnone
    rw [h] at hnone
    cases hnone
  · rename_i hsome
    rw [h] at hsome
    cases hsome
    rfl

theorem ceilDiv_sub {m k : Nat} (hm : 0 < m) (hk : 0 < k) : m ⌈/⌉ k = (m - k) ⌈/⌉ k + 1 := by
  rw [Nat.ceilDiv_eq_add_pred_div, Nat.ceilDiv_eq_add_pred_div, ← Nat.add_div_right _ hk]
  rcases Nat.lt_or_ge m k with hlast | hmore
  · -- the last round takes what is left
    rw [Nat.sub_eq_zero_of_le hlast.le, Nat.div_eq_of_lt_le (k := 1) (by omega) (by omega),
      Nat.div_eq_of_lt_le (k := 1) (by omega) (by omega)]
  · congr 1
    omega

/-- The rounds of a pool: how many there are, the lines of each, and all lines together. -/
theorem drawAll_drawn {pool : Pool} (source : σ) (h : pool.IsFair) :
    ∃ (drawn : List (List Text)) (left : Pool) (after : σ), pool.drawAll source = (drawn.map joined, left, after) ∧
      left.nextRound? after = none ∧
      drawn.length = min pool.roundsLeft (pool.lines.length ⌈/⌉ pool.perRound) ∧
      (∀ i (hi : i < drawn.length), drawn[i].length = min pool.perRound (pool.lines.length - i * pool.perRound)) ∧
      (drawn.flatten ++ left.lines).Perm pool.lines := by
  induction hrounds : pool.roundsLeft using Nat.strong_induction_on generalizing pool source with
  | _ rounds ih =>
    subst hrounds
    cases hround : pool.nextRound? source with
    | none =>
      refine ⟨[], pool, source, drawAll_of_none hround, hround, ?_, fun i hi => absurd hi (Nat.not_lt_zero i), .refl _⟩
      have hnext : ¬pool.hasNextRound = true := by
        intro hnext
        rw [nextRound?, if_pos hnext] at hround
        cases hround
      rw [hasNextRound_iff h, not_and_or, not_not, Nat.not_lt, Nat.le_zero] at hnext
      rcases hnext with hrounds | hlines
      · rw [hrounds, Nat.zero_min, List.length_nil]
      · rw [hlines, List.length_nil, List.length_nil, zero_ceilDiv, Nat.min_zero]
    | some found =>
      obtain ⟨t, next, after⟩ := found
      obtain ⟨hnext, taken, rfl, hdrawn⟩ := nextRound_some hround
      obtain ⟨hrounds, hlines⟩ := (hasNextRound_iff h).1 hnext
      have hperRound := h.resolve_left hlines
      have hrest : next.IsFair := .inr (by rw [hdrawn.perRound]; exact hperRound)
      obtain ⟨drawn, left, last, hall, hlast, hcount, hsizes, hperm⟩ :=
        ih next.roundsLeft (roundsLeft_lt hround) after hrest rfl
      have hleft : next.lines.length = pool.lines.length - pool.perRound := hdrawn.length_left
      have hcounted : next.roundsLeft = pool.roundsLeft - 1 := hdrawn.roundsLeft
      have hsame : next.perRound = pool.perRound := hdrawn.perRound
      refine ⟨taken :: drawn, left, last, ?_, hlast, ?_, ?_, ?_⟩
      · rw [drawAll_of_some hround, hall, List.map_cons]
      · have hlength : 0 < pool.lines.length := List.length_pos_iff.2 hlines
        rw [List.length_cons, hcount, hcounted, hleft, hsame, ceilDiv_sub hlength hperRound]
        omega
      · intro i hi
        cases i with
        | zero => simpa using hdrawn.length
        | succ i =>
          rw [List.getElem_cons_succ, hsizes, hleft, hsame, Nat.succ_mul, Nat.sub_sub, Nat.add_comm pool.perRound]
      · rw [List.flatten_cons, List.append_assoc]
        exact (hperm.append_left taken).trans hdrawn.perm

/-! ## Room -/

/-- What a pool and its source become when a round or some lines are drawn. -/
inductive Draws : Pool × σ → Pool × σ → Prop where
  | round {pool : Pool} {source : σ} {t : Text} {next : Pool × σ} :
    pool.nextRound? source = some (t, next) → Draws (pool, source) next
  | lines {pool : Pool} {source : σ} {n : Nat} {t : Text} {next : Pool × σ} :
    pool.pick n source = .ok (t, next) → Draws (pool, source) next

theorem pick_cases (pool : Pool) (n : Nat) (source : σ) :
    (maxCapacity < n ∧ pool.pick n source = .error .capacityOverflow) ∨
      (n ≤ maxCapacity ∧ ∃ taken left after, pool.pick n source = .ok (joined taken, left, after) ∧
        pool.Drawn n taken left) := by
  unfold pick
  split
  · rename_i hroom
    exact .inl ⟨hroom, rfl⟩
  · rename_i hroom
    obtain ⟨taken, left, after, hdraw, hdrawn⟩ := draw_drawn pool n source
    exact .inr ⟨Nat.not_lt.1 hroom, taken, left, after, congrArg Except.ok hdraw, hdrawn⟩

/-- How many lines make a round never changes. -/
theorem Draws.perRound {before after : Pool × σ} (h : Draws before after) : after.1.perRound = before.1.perRound := by
  cases h with
  | round hround =>
    obtain ⟨-, taken, -, hdrawn⟩ := nextRound_some hround
    exact hdrawn.perRound
  | lines hpick =>
    rename_i pool source n t
    rcases pick_cases pool n source with ⟨-, hfault⟩ | ⟨-, taken, left, after, hok, hdrawn⟩
    · rw [hfault] at hpick
      cases hpick
    · rw [hok] at hpick
      cases hpick
      exact hdrawn.perRound

theorem perRound_of_draws {before after : Pool × σ} (h : Relation.ReflTransGen Draws before after) :
    after.1.perRound = before.1.perRound := by
  induction h with
  | refl => rfl
  | tail _ hdraws ih => exact hdraws.perRound.trans ih

/-- A round makes room for its lines. -/
theorem pick_of_nextRound {pool : Pool} {source : σ} {next : Text × Pool × σ} (h : pool.nextRound? source = some next)
    (hroom : pool.perRound ≤ maxCapacity) :
    ({ pool with roundsLeft := pool.roundsLeft - 1 } : Pool).pick pool.perRound source = .ok next := by
  unfold nextRound? at h
  split at h
  · cases h
    rw [pick, if_neg (Nat.not_lt.2 hroom)]
  · cases h

/-! ## Rounds of a text -/

/-- The rounds of a text, for all numbers of lines and rounds and every source of choices: how many rounds there are,
how many lines each of them takes, and that no line is lost or comes twice. Whatever has been drawn before, a round
makes room for no more lines than the text has. Any number of lines can be drawn from any pool, as far as they last,
unless no list has room for so many. -/
theorem drawAll_ofText (t : Text) (perRound : Option Nat) (rounds : Nat) (source : σ) :
    let m := t.lines.length
    let k := min (max (perRound.getD m) 1) m
    (∃ (drawn : List (List Text)) (left : Pool) (after : σ),
      (ofText t perRound rounds).drawAll source = (drawn.map joined, left, after) ∧
      left.nextRound? after = none ∧ drawn.length = min rounds (m ⌈/⌉ k) ∧
      (∀ i (hi : i < drawn.length), drawn[i].length = min k (m - i * k)) ∧
      (drawn.flatten ++ left.lines).Perm t.lines) ∧
    (∀ (pool : Pool) (before : σ) (next : Text × Pool × σ),
      Relation.ReflTransGen Draws (ofText t perRound rounds, source) (pool, before) →
      pool.nextRound? before = some next → pool.perRound = k ∧ k ≤ m ∧
        (k ≤ maxCapacity → ({ pool with roundsLeft := pool.roundsLeft - 1 } : Pool).pick k before = .ok next)) ∧
    ∀ (pool : Pool) (n : Nat) (before : σ),
      (maxCapacity < n ∧ pool.pick n before = .error .capacityOverflow) ∨
        (n ≤ maxCapacity ∧ ∃ taken left after, pool.pick n before = .ok (joined taken, left, after) ∧
          taken.length = min n pool.lines.length ∧ (taken ++ left.lines).Perm pool.lines) := by
  intro m k
  refine ⟨drawAll_drawn source (isFair_ofText t perRound rounds), ?_, ?_⟩
  · intro pool before next hdraws hround
    have hperRound : pool.perRound = k := perRound_of_draws hdraws
    refine ⟨hperRound, Nat.min_le_right .., fun hroom => ?_⟩
    rw [← hperRound]
    exact pick_of_nextRound hround (hperRound.trans_le hroom)
  · intro pool n before
    rcases pick_cases pool n before with hfault | ⟨hroom, taken, left, after, hok, hdrawn⟩
    · exact .inl hfault
    · exact .inr ⟨hroom, taken, left, after, hok, hdrawn.length, hdrawn.perm⟩

/-- More lines than a text has can be drawn from it, but not as many as a word can say. -/
theorem pick_beyond_room :
    (ofText "a\nb".toList none 1).lines = [['a'], ['b']] ∧
    (∃ t left after, (ofText "a\nb".toList none 1).pick 5 (Xoshiro.ofSeed 1) = .ok (t, left, after) ∧
      left.lines = []) ∧
    ¬∃ t left after, (ofText "a\nb".toList none 1).pick (wordBound - 1) (Xoshiro.ofSeed 1) = .ok (t, left, after) ∧
      left.lines = [] := by
  refine ⟨by decide, ⟨_, _, _, rfl, by decide +kernel⟩, ?_⟩
  rintro ⟨t, left, after, hpick, -⟩
  rw [pick, if_pos (by decide)] at hpick
  cases hpick

end KanaTutor.Pool
