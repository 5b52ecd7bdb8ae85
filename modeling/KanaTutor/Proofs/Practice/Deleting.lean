/-
Deleting from typed text, by an offset and a count that machine words hold. The place where the deleting starts and the
one where it ends are sums of words, and a sum that wraps around is known by its carry. So no place in front of the text
and no end behind it comes out as one within the text, and what is kept, character by character, are the two parts of
the text around those that are deleted.
-/
import KanaTutor.Lesson.Desk
import Mathlib.Algebra.Group.Int.Defs
import Mathlib.Algebra.Group.Nat.Defs
import Mathlib.Tactic.ByContra
import Mathlib.Tactic.SplitIfs

namespace KanaTutor

/-! ## Sums of words -/

/-- The sum of two words, unless it wraps around. -/
def addWords? (a b : UInt64) : Option UInt64 := if a + b < a then none else some (a + b)

/-- The sum of a word and a signed word, unless it wraps around: it has to be less than the word exactly if the signed
word is negative. -/
def addSigned? (a : UInt64) (k : Int64) : Option UInt64 :=
  if a + k.toUInt64 < a ↔ k < 0 then some (a + k.toUInt64) else none

theorem addWords?_eq_some_iff {a b c : UInt64} : addWords? a b = some c ↔ c.toNat = a.toNat + b.toNat := by
  have ha := a.toNat_lt
  have hb := b.toNat_lt
  have hc := c.toNat_lt
  have hcarry : a + b < a ↔ (a.toNat + b.toNat) % 2 ^ 64 < a.toNat := by
    rw [UInt64.lt_iff_toNat_lt, UInt64.toNat_add]
  unfold addWords?
  split_ifs with hwraps
  · rw [hcarry] at hwraps
    constructor
    · nofun
    · omega
  · rw [hcarry] at hwraps
    rw [Option.some.injEq, ← UInt64.toNat_inj, UInt64.toNat_add]
    omega

/-- A signed word as a word: the negative ones come after the others. -/
theorem toNat_toUInt64 (k : Int64) :
    (k.toUInt64.toNat : Int) = if k.toInt < 0 then k.toInt + 2 ^ 64 else k.toInt := by
  have hsigned : k.toInt = k.toUInt64.toBitVec.toInt := rfl
  have hword : k.toUInt64.toBitVec.toNat < 2 ^ 64 := k.toUInt64.toNat_lt
  rw [hsigned, BitVec.toInt_eq_toNat_cond]
  show (k.toUInt64.toBitVec.toNat : Int) = _
  split_ifs <;> omega

theorem addSigned?_eq_some_iff {a c : UInt64} {k : Int64} :
    addSigned? a k = some c ↔ (c.toNat : Int) = a.toNat + k.toInt := by
  have ha := a.toNat_lt
  have hc := c.toNat_lt
  have hlow := k.le_toInt
  have hhigh := k.toInt_lt
  have hk := toNat_toUInt64 k
  have hcarry : a + k.toUInt64 < a ↔ (a.toNat + k.toUInt64.toNat) % 2 ^ 64 < a.toNat := by
    rw [UInt64.lt_iff_toNat_lt, UInt64.toNat_add]
  have hnegative : k < 0 ↔ k.toInt < 0 := Int64.lt_iff_toInt_lt
  unfold addSigned?
  split_ifs with hkept
  · rw [hcarry, hnegative] at hkept
    rw [Option.some.injEq, ← UInt64.toNat_inj, UInt64.toNat_add]
    split at hk <;> omega
  · rw [hcarry, hnegative] at hkept
    constructor
    · nofun
    · split at hk <;> omega

/-- The numbers that are no words. -/
theorem forall_toNat_ne_iff {n : Int} : (∀ c : UInt64, ¬(c.toNat : Int) = n) ↔ n < 0 ∨ 2 ^ 64 ≤ n := by
  constructor
  · intro hne
    by_contra hin
    obtain ⟨m, rfl⟩ := Int.eq_ofNat_of_zero_le (show 0 ≤ n by omega)
    refine hne (UInt64.ofNat m) ?_
    rw [UInt64.toNat_ofNat_of_lt' (show m < 2 ^ 64 by omega)]
  · intro hout c hc
    have := c.toNat_lt
    omega

theorem addWords?_eq_none_iff {a b : UInt64} : addWords? a b = none ↔ 2 ^ 64 ≤ a.toNat + b.toNat := by
  have hwords := forall_toNat_ne_iff (n := (a.toNat + b.toNat : Nat))
  simp only [Int.ofNat_inj] at hwords
  simp only [Option.eq_none_iff_forall_ne_some, ne_eq, addWords?_eq_some_iff, hwords]
  omega

theorem addSigned?_eq_none_iff {a : UInt64} {k : Int64} :
    addSigned? a k = none ↔ (a.toNat : Int) + k.toInt < 0 ∨ 2 ^ 64 ≤ (a.toNat : Int) + k.toInt := by
  simp only [Option.eq_none_iff_forall_ne_some, ne_eq, addSigned?_eq_some_iff, forall_toNat_ne_iff]

/-! ## Parts of a text -/

/-- The characters of a text that are in front of one place, or not in front of another one. -/
def Text.outside (t : Text) (start stop : Nat) : Text :=
  (t.zipIdx.filter fun (_, i) => i < start || stop ≤ i).map (·.1)

theorem Text.outside_eq (t : Text) {start stop : Nat} (h : start ≤ stop) :
    t.outside start stop = t.take start ++ t.drop stop := by
  have hfrom : ∀ (t : Text) (k : Nat), ((t.zipIdx k).filter fun (_, i) => i < start || stop ≤ i).map (·.1) =
      t.take (start - k) ++ t.drop (stop - k) := by
    intro t
    induction t with
    | nil => simp
    | cons c t ih =>
      intro k
      have hrest := ih (k + 1)
      rw [List.zipIdx_cons, List.filter_cons]
      by_cases hstart : k < start
      · obtain ⟨m, hm⟩ : ∃ m, start - k = m + 1 := ⟨start - k - 1, by omega⟩
        obtain ⟨n, hn⟩ : ∃ n, stop - k = n + 1 := ⟨stop - k - 1, by omega⟩
        rw [show start - (k + 1) = m by omega, show stop - (k + 1) = n by omega] at hrest
        simp [hstart, hm, hn, hrest]
      · by_cases hstop : stop ≤ k
        · rw [show start - (k + 1) = 0 by omega, show stop - (k + 1) = 0 by omega] at hrest
          simp [hstop, hrest, show start - k = 0 by omega, show stop - k = 0 by omega]
        · obtain ⟨n, hn⟩ : ∃ n, stop - k = n + 1 := ⟨stop - k - 1, by omega⟩
          rw [show start - (k + 1) = 0 by omega, show stop - (k + 1) = n by omega] at hrest
          simp [hstart, hstop, hn, hrest, show start - k = 0 by omega]
  exact hfrom t 0

namespace Session

/-! ## Deleting by words -/

/-- Removes characters with sums of words: the start, and from it the end, which may not be behind the text. -/
def deleteInWords? (s : Session) (offset : Int64) (count : UInt64) : Option Session :=
  (addSigned? (UInt64.ofNat s.typed.length) offset).bind fun start =>
    (addWords? start count).bind fun stop =>
      if UInt64.ofNat s.typed.length < stop then none
      else some { s with typed := s.typed.outside start.toNat stop.toNat }

/-- What can be deleted, and what is left: the text is cut into three parts, and the one in the middle goes. -/
theorem delete?_eq_some_iff {s left : Session} {offset : Int} {count : Nat} :
    s.delete? offset count = some left ↔ ∃ front gone back, s.typed = front ++ gone ++ back ∧
      (front.length : Int) = s.typed.length + offset ∧ gone.length = count ∧
      left = { s with typed := front ++ back } := by
  unfold delete?
  dsimp only
  split_ifs with hin
  · obtain ⟨start, hstart⟩ := Int.eq_ofNat_of_zero_le hin.1
    rw [hstart] at hin ⊢
    rw [Int.toNat_natCast, Option.some.injEq]
    constructor
    · rintro rfl
      refine ⟨s.typed.take start, (s.typed.drop start).take count, s.typed.drop (start + count), ?_, ?_, ?_, rfl⟩
      · rw [List.append_assoc, ← List.drop_drop, List.take_append_drop, List.take_append_drop]
      · rw [List.length_take]
        omega
      · rw [List.length_take, List.length_drop]
        omega
    · rintro ⟨front, gone, back, htyped, hfront, rfl, rfl⟩
      obtain rfl : start = front.length := by omega
      rw [htyped, List.append_assoc, List.take_left, ← List.drop_drop, List.drop_left, List.drop_left]
  · constructor
    · nofun
    · rintro ⟨front, gone, back, htyped, hfront, rfl, -⟩
      have hlength := congrArg List.length htyped
      rw [List.length_append, List.length_append] at hlength
      omega

theorem isSome_delete?_iff {s : Session} {offset : Int} {count : Nat} :
    (s.delete? offset count).isSome = true ↔
      0 ≤ (s.typed.length : Int) + offset ∧ (s.typed.length : Int) + offset + count ≤ s.typed.length := by
  unfold delete?
  dsimp only
  split_ifs with hin
  · exact ⟨fun _ => hin, fun _ => rfl⟩
  · exact ⟨nofun, fun h => absurd h hin⟩

theorem delete?_eq_none {s : Session} {offset : Int} {count : Nat}
    (h : (s.typed.length : Int) + offset < 0 ∨ 0 < offset + count) : s.delete? offset count = none := by
  rw [← Option.not_isSome_iff_eq_none, isSome_delete?_iff]
  omega

/-- Sums of words delete what exact numbers say. -/
theorem deleteInWords?_eq {s : Session} (hs : s.typed.length < wordBound) (offset : Int64) (count : UInt64) :
    s.deleteInWords? offset count = s.delete? offset.toInt count.toNat := by
  have hlength : (UInt64.ofNat s.typed.length).toNat = s.typed.length := UInt64.toNat_ofNat_of_lt' hs
  have hbound : wordBound = 2 ^ 64 := rfl
  unfold deleteInWords?
  cases hstart : addSigned? (UInt64.ofNat s.typed.length) offset with
  | none =>
    rw [addSigned?_eq_none_iff, hlength] at hstart
    rw [delete?_eq_none (by omega)]
    rfl
  | some start =>
    rw [addSigned?_eq_some_iff, hlength] at hstart
    rw [Option.bind_some]
    cases hstop : addWords? start count with
    | none =>
      rw [addWords?_eq_none_iff] at hstop
      rw [delete?_eq_none (by omega)]
      rfl
    | some stop =>
      rw [addWords?_eq_some_iff] at hstop
      have hbehind : UInt64.ofNat s.typed.length < stop ↔ s.typed.length < stop.toNat := by
        rw [UInt64.lt_iff_toNat_lt, hlength]
      rw [Option.bind_some]
      split_ifs with hend
      · rw [hbehind] at hend
        rw [delete?_eq_none (by omega)]
      · rw [hbehind] at hend
        rw [delete?, if_pos (by omega), ← hstart, Int.toNat_natCast, hstop, Text.outside_eq _ (Nat.le_add_right ..)]

/-! ## Deleting is exact -/

/-- For every session, every signed word and every word, in exact numbers: something is deleted exactly if it starts and
ends within the text. Then the text was in three parts, the first up to the start and the second as long as the count,
and the session is what it was but for the second part. The learner is told whether it was done; if not, nothing has
changed. Sums of words come to the same, for all texts whose length is a word. -/
theorem deleting_exact (s : Session) (offset : Int64) (count : UInt64) :
    ((s.delete? offset.toInt count.toNat).isSome = true ↔ 0 ≤ (s.typed.length : Int) + offset.toInt ∧
      (s.typed.length : Int) + offset.toInt + count.toNat ≤ s.typed.length) ∧
    (∀ left, s.delete? offset.toInt count.toNat = some left ↔ ∃ front gone back, s.typed = front ++ gone ++ back ∧
      (front.length : Int) = s.typed.length + offset.toInt ∧ gone.length = count.toNat ∧
      left = { s with typed := front ++ back }) ∧
    (∀ (desk : Desk) (clock : Timestamp),
      (desk.withPlayer { desk.player with session := s }).perform clock (.delete offset.toInt count.toNat) =
        .ok (some (s.delete? offset.toInt count.toNat).isSome,
          desk.withPlayer { desk.player with session := (s.delete? offset.toInt count.toNat).getD s })) ∧
    (s.typed.length < wordBound → s.deleteInWords? offset count = s.delete? offset.toInt count.toNat) := by
  refine ⟨isSome_delete?_iff, fun left => delete?_eq_some_iff, ?_, fun hs => deleteInWords?_eq hs offset count⟩
  intro desk clock
  show Except.ok (Desk.attempt _ ((s.delete? offset.toInt count.toNat).map _)) = _
  cases s.delete? offset.toInt count.toNat <;> rfl

/-- A session in which three letters are typed, and another one is pending. -/
def threeTyped : Session := ⟨['a', 'b', 'c'], { text := ['d'] }, some .zero, none, 4⟩

/-- The letter in the middle is deleted. Nothing is, where the sum of the length and the offset is no word, or where it
is one and its sum with the count is not. -/
theorem deleting_exact_threeTyped : threeTyped.typed.length < wordBound ∧
    threeTyped.deleteInWords? (-2) 1 = some { threeTyped with typed := ['a', 'c'] } ∧
    threeTyped.deleteInWords? Int64.minValue 18446744073709551615 = none ∧
    threeTyped.deleteInWords? (-3) 18446744073709551615 = none := by
  have hlength : threeTyped.typed.length < wordBound := by decide
  have hwords := fun offset count => (deleting_exact threeTyped offset count).2.2.2 hlength
  refine ⟨hlength, ?_, ?_, ?_⟩
  · rw [hwords]
    decide
  · rw [hwords]
    decide
  · rw [hwords]
    decide

end Session

end KanaTutor
