/-
The keys of a hint. They are looked for character by character and key by key. A key that is found again for the same
legend is not named twice, and each key with shift asks for the shift key of the other hand. What has been found is a
function of the keys met so far, as a list with repetitions: each of them once, and whether any asks for either shift
key. So at the end exactly the keys with a legend for some character have been found, and the shift keys to hold depend
on nothing but the columns of those with shift.
-/
import KanaTutor.Keyboard.Hint
import KanaTutor.Proofs.Keyboard.Places
import Mathlib.Data.List.Induction

namespace KanaTutor.Typing

/-! ## Looking for keys -/

/-- The keys found so far, and whether the shift keys on the left and on the right are needed. -/
structure Search where
  strokes : List Stroke := []
  left : Bool := false
  right : Bool := false
deriving DecidableEq, Repr

namespace Search

/-- A key is found. -/
def add (found : Search) (s : Stroke) : Search where
  strokes := if s ∈ found.strokes then found.strokes else found.strokes ++ [s]
  left := found.left || (s.shifted && (Board.handOf s.place.2).opposite = .left)
  right := found.right || (s.shifted && (Board.handOf s.place.2).opposite = .right)

/-- Looks at all keys for a character. -/
def lookFor (b : Board) (found : Search) (c : Char) : Search :=
  b.places.foldl (fun found p =>
    match strokeOn c p.1 p.2 with
    | some s => found.add s
    | none => found) found

/-- The shift keys to hold. The first shift key is on the left, and the second one, or else the first, on the right. -/
def shiftKeys (b : Board) (found : Search) : List Place :=
  match b.placesOf [Legend.shift] with
  | [] => []
  | left :: others =>
    let held := if found.right then [others.head?.getD left] else []
    if found.left && !held.contains left then held ++ [left] else held

end Search

/-- The keys that type the characters, and the shift keys to hold, as they are found. -/
def locate (b : Board) (sequence : Text) : List Stroke × List Place :=
  let found := sequence.foldl (Search.lookFor b) {}
  (found.strokes, found.shiftKeys b)

/-! ## What has been found -/

theorem eraseDups_concat {α : Type} [BEq α] [LawfulBEq α] (l : List α) (a : α) [Decidable (a ∈ l)] :
    (l ++ [a]).eraseDups = if a ∈ l then l.eraseDups else l.eraseDups ++ [a] := by
  rw [List.eraseDups_append]
  split
  · rename_i h
    simp [List.removeAll, h]
  · rename_i h
    simp [List.removeAll, h, List.eraseDups_cons]

theorem usesShift_iff {hand : Board.Hand} {strokes : List Stroke} : usesShift hand strokes = true ↔
    ∃ s ∈ strokes, s.shifted = true ∧ Board.handOf s.place.2 = hand := by
  simp [usesShift]

theorem opposite_eq_left {hand : Board.Hand} : hand.opposite = .left ↔ hand = .right := by
  cases hand <;> decide

theorem opposite_eq_right {hand : Board.Hand} : hand.opposite = .right ↔ hand = .left := by
  cases hand <;> decide

/-- After some keys, each of them has been found once, and the shift keys are needed that the hands do not reach. -/
theorem foldl_add (met : List Stroke) : met.foldl Search.add {} =
    ⟨met.eraseDups, usesShift .right met, usesShift .left met⟩ := by
  induction met using List.reverseRecOn with
  | nil => rfl
  | append_singleton met s ih =>
    rw [List.foldl_append, ih, List.foldl_cons, List.foldl_nil, eraseDups_concat]
    simp [Search.add, usesShift, opposite_eq_left, opposite_eq_right]

theorem usesShift_eraseDups (hand : Board.Hand) (met : List Stroke) :
    usesShift hand met.eraseDups = usesShift hand met := by
  rw [Bool.eq_iff_iff, usesShift_iff, usesShift_iff]
  simp only [List.mem_eraseDups]

theorem foldl_lookFor (b : Board) (sequence : Text) : sequence.foldl (Search.lookFor b) {} =
    ⟨strokes b sequence, usesShift .right (strokes b sequence), usesShift .left (strokes b sequence)⟩ := by
  have hmet : sequence.foldl (Search.lookFor b) {} =
      (sequence.flatMap fun c => b.places.filterMap fun p => strokeOn c p.1 p.2).foldl Search.add {} := by
    rw [List.foldl_flatMap]
    refine congrArg (fun f => List.foldl f ({} : Search) sequence) (funext fun found => funext fun c => ?_)
    rw [List.foldl_filterMap, Search.lookFor]
    refine congrArg (fun f => List.foldl f found b.places) (funext fun found => funext fun p => ?_)
    cases strokeOn c p.1 p.2 <;> rfl
  rw [hmet, foldl_add, ← usesShift_eraseDups .right, ← usesShift_eraseDups .left]
  rfl

theorem locate_eq (b : Board) (sequence : Text) :
    locate b sequence = (strokes b sequence, shiftKeys b (strokes b sequence)) := by
  rw [locate, foldl_lookFor]
  rfl

/-! ## The keys -/

theorem strokeOn_eq_some_iff {c : Char} {place : Place} {k : Keycap} {s : Stroke} : strokeOn c place k = some s ↔
    s.place = place ∧ if s.shifted then c ∈ k.shifted ∧ c ∉ k.base else c ∈ k.base := by
  obtain ⟨place', shifted⟩ := s
  unfold strokeOn
  cases shifted <;> by_cases hbase : c ∈ k.base <;> by_cases hshifted : c ∈ k.shifted <;>
    simp [hbase, hshifted, eq_comm]

theorem mem_strokes {b : Board} {sequence : Text} {s : Stroke} : s ∈ strokes b sequence ↔
    ∃ k, b.key? s.place = some k ∧
      ∃ c ∈ sequence, if s.shifted then c ∈ k.shifted ∧ c ∉ k.base else c ∈ k.base := by
  simp only [strokes, List.mem_eraseDups, List.mem_flatMap, List.mem_filterMap, strokeOn_eq_some_iff]
  constructor
  · rintro ⟨c, hc, ⟨place, k⟩, hk, rfl, hlegend⟩
    exact ⟨k, Board.mem_places.1 hk, c, hc, hlegend⟩
  · rintro ⟨k, hk, c, hc, hlegend⟩
    exact ⟨c, hc, (s.place, k), Board.mem_places.2 hk, rfl, hlegend⟩

theorem nodup_eraseDups {α : Type} [DecidableEq α] (l : List α) : l.eraseDups.Nodup := by
  induction l using List.reverseRecOn with
  | nil => exact List.nodup_nil
  | append_singleton l a ih =>
    rw [eraseDups_concat]
    split
    · exact ih
    · rename_i h
      refine List.nodup_append.2 ⟨ih, by simp, ?_⟩
      rintro x hx _ hy rfl
      obtain rfl := List.mem_singleton.1 hy
      exact h (List.mem_eraseDups.1 hx)

/-! ## The shift keys -/

theorem handOf_eq_left {column : Nat} : Board.handOf column = .left ↔ column ≤ 5 := by
  unfold Board.handOf
  split <;> simp_all

theorem handOf_eq_right {column : Nat} : Board.handOf column = .right ↔ 6 ≤ column := by
  unfold Board.handOf
  split
  · simp
    omega
  · simp
    omega

theorem mem_placesOf {b : Board} {legend : Text} {place : Place} :
    place ∈ b.placesOf legend ↔ ∃ k, b.key? place = some k ∧ k.base = legend := by
  simp only [Board.placesOf, List.mem_map, List.mem_filter, decide_eq_true_eq]
  constructor
  · rintro ⟨⟨place, k⟩, ⟨hk, hlegend⟩, rfl⟩
    exact ⟨k, Board.mem_places.1 hk, hlegend⟩
  · rintro ⟨k, hk, hlegend⟩
    exact ⟨(place, k), ⟨Board.mem_places.2 hk, hlegend⟩, rfl⟩

theorem placesOf_ordered (b : Board) (legend : Text) : (b.placesOf legend).Pairwise Board.Precedes := by
  rw [Board.placesOf, List.pairwise_map]
  exact b.places_ordered.filter _

theorem usesShift_cases {strokes : List Stroke} (h : ∃ s ∈ strokes, s.shifted = true) :
    usesShift .left strokes = true ∨ usesShift .right strokes = true := by
  obtain ⟨s, hs, hshifted⟩ := h
  cases hhand : Board.handOf s.place.2 with
  | left => exact .inl (usesShift_iff.2 ⟨s, hs, hshifted, hhand⟩)
  | right => exact .inr (usesShift_iff.2 ⟨s, hs, hshifted, hhand⟩)

theorem shifted_of_usesShift {hand : Board.Hand} {strokes : List Stroke} (h : usesShift hand strokes = true) :
    ∃ s ∈ strokes, s.shifted = true := by
  obtain ⟨s, hs, hshifted, -⟩ := usesShift_iff.1 h
  exact ⟨s, hs, hshifted⟩

/-- A keyboard with one shift key holds it for every key with shift. -/
theorem shiftKeys_one {b : Board} {only : Place} (h : b.placesOf [Legend.shift] = [only]) (strokes : List Stroke) :
    shiftKeys b strokes = if ∃ s ∈ strokes, s.shifted = true then [only] else [] := by
  by_cases hshifted : ∃ s ∈ strokes, s.shifted = true
  · rw [shiftKeys, h, if_pos hshifted]
    rcases usesShift_cases hshifted with hleft | hright
    · simp [hleft]
    · cases hleft : usesShift .left strokes <;> simp [hright]
  · have hnone : ∀ hand, usesShift hand strokes = false := by
      intro hand
      rw [Bool.eq_false_iff]
      exact fun huses => hshifted (shifted_of_usesShift huses)
    rw [shiftKeys, h, if_neg hshifted]
    simp [hnone]

theorem first_ne_second {b : Board} {legend : Text} {first second : Place} {others : List Place}
    (h : b.placesOf legend = first :: second :: others) : first ≠ second := by
  have hordered := placesOf_ordered b legend
  rw [h] at hordered
  exact (List.rel_of_pairwise_cons hordered (by simp)).ne

/-- A keyboard with more shift keys holds the second one for the left hand, and the first one for the right hand. -/
theorem shiftKeys_two {b : Board} {first second : Place} {others : List Place}
    (h : b.placesOf [Legend.shift] = first :: second :: others) (strokes : List Stroke) :
    shiftKeys b strokes = (if usesShift .left strokes then [second] else []) ++
      if usesShift .right strokes then [first] else [] := by
  have hne := first_ne_second h
  rw [shiftKeys, h]
  cases usesShift .left strokes <;> cases usesShift .right strokes <;> simp [hne]

theorem mem_placesOf_of_mem_shiftKeys {b : Board} {strokes : List Stroke} {place : Place}
    (h : place ∈ shiftKeys b strokes) : place ∈ b.placesOf [Legend.shift] := by
  match hshifts : b.placesOf [Legend.shift] with
  | [] =>
    rw [shiftKeys, hshifts] at h
    cases h
  | [only] =>
    rw [shiftKeys_one hshifts] at h
    split at h
    · exact h
    · cases h
  | first :: second :: others =>
    rw [shiftKeys_two hshifts, List.mem_append, List.mem_ite_nil_right, List.mem_ite_nil_right] at h
    rcases h with ⟨-, h⟩ | ⟨-, h⟩
    · exact List.mem_cons_of_mem first (List.mem_cons.2 (.inl (List.mem_singleton.1 h)))
    · exact List.mem_cons.2 (.inl (List.mem_singleton.1 h))

theorem nodup_shiftKeys (b : Board) (strokes : List Stroke) : (shiftKeys b strokes).Nodup := by
  match hshifts : b.placesOf [Legend.shift] with
  | [] =>
    rw [shiftKeys, hshifts]
    exact List.nodup_nil
  | [only] =>
    rw [shiftKeys_one hshifts]
    split <;> simp
  | first :: second :: others =>
    have hne := first_ne_second hshifts
    rw [shiftKeys_two hshifts]
    split <;> split <;> simp [hne.symm]

/-- Shift keys are held if some key is typed with shift and there is a shift key. -/
theorem shiftKeys_ne_nil_iff {b : Board} {strokes : List Stroke} : shiftKeys b strokes ≠ [] ↔
    (∃ s ∈ strokes, s.shifted = true) ∧ b.placesOf [Legend.shift] ≠ [] := by
  match hshifts : b.placesOf [Legend.shift] with
  | [] => simp [shiftKeys, hshifts]
  | [only] =>
    rw [shiftKeys_one hshifts]
    split <;> simp [*]
  | first :: second :: others =>
    have hused : (∃ s ∈ strokes, s.shifted = true) ↔
        usesShift .left strokes = true ∨ usesShift .right strokes = true :=
      ⟨usesShift_cases, fun h => h.elim shifted_of_usesShift shifted_of_usesShift⟩
    rw [shiftKeys_two hshifts, hused]
    split <;> split <;> simp [*]

/-- Which shift key is held is decided by the columns of the keys with shift, unless there is only one to hold. -/
theorem mem_shiftKeys (b : Board) (strokes : List Stroke) :
    match b.placesOf [Legend.shift] with
    | [] => shiftKeys b strokes = []
    | [only] => only ∈ shiftKeys b strokes ↔ ∃ s ∈ strokes, s.shifted = true
    | first :: second :: _ =>
      (second ∈ shiftKeys b strokes ↔ ∃ s ∈ strokes, s.shifted = true ∧ s.place.2 ≤ 5) ∧
        (first ∈ shiftKeys b strokes ↔ ∃ s ∈ strokes, s.shifted = true ∧ 6 ≤ s.place.2) := by
  match hshifts : b.placesOf [Legend.shift] with
  | [] => rw [shiftKeys, hshifts]
  | [only] =>
    dsimp only
    rw [shiftKeys_one hshifts, List.mem_ite_nil_right, List.mem_singleton, eq_self, and_true]
  | first :: second :: others =>
    have hne := first_ne_second hshifts
    have hleft : usesShift .left strokes = true ↔ ∃ s ∈ strokes, s.shifted = true ∧ s.place.2 ≤ 5 := by
      simp only [usesShift_iff, handOf_eq_left]
    have hright : usesShift .right strokes = true ↔ ∃ s ∈ strokes, s.shifted = true ∧ 6 ≤ s.place.2 := by
      simp only [usesShift_iff, handOf_eq_right]
    dsimp only
    rw [← hleft, ← hright, shiftKeys_two hshifts]
    simp only [List.mem_append, List.mem_ite_nil_right, List.mem_singleton, hne, hne.symm, and_true, and_false,
      or_false, false_or, and_self]

/-! ## Hints -/

/-- The keys of a hint are those of its characters, of no characters if there is nothing to type. -/
theorem strokes_hint (typing : Typing) (t : Text) :
    (typing.hint t).strokes = strokes typing.layout.board (typing.hint t).sequence ∧
      (typing.hint t).shiftKeys = shiftKeys typing.layout.board (typing.hint t).strokes := by
  unfold hint
  cases typing.next? t with
  | none =>
    refine ⟨rfl, ?_⟩
    cases hshifts : typing.layout.board.placesOf [Legend.shift] <;> simp [shiftKeys, hshifts, usesShift]
  | some next => exact ⟨rfl, rfl⟩

/-- The keys of a hint are found by looking at every key for every character. Each is named once, and exactly those
are named that have some character on them: with shift, if it is there only with shift. The shift keys to hold are
named once as well, and there are some exactly if a key is named with shift and the keyboard has a shift key. The second
shift key is held for a key with shift in the columns of the left hand, and the first one for one in those of the right
hand; a single shift key is held for both. -/
theorem hint_places (typing : Typing) (t : Text) :
    locate typing.layout.board (typing.hint t).sequence = ((typing.hint t).strokes, (typing.hint t).shiftKeys) ∧
      (typing.hint t).strokes.Nodup ∧
      (∀ s, s ∈ (typing.hint t).strokes ↔ ∃ k, typing.layout.board.key? s.place = some k ∧
        ∃ c ∈ (typing.hint t).sequence, if s.shifted then c ∈ k.shifted ∧ c ∉ k.base else c ∈ k.base) ∧
      (∀ place, place ∈ typing.layout.board.placesOf [Legend.shift] ↔
        ∃ k, typing.layout.board.key? place = some k ∧ k.base = [Legend.shift]) ∧
      (typing.layout.board.placesOf [Legend.shift]).Pairwise Board.Precedes ∧
      (typing.hint t).shiftKeys.Nodup ∧
      (∀ place ∈ (typing.hint t).shiftKeys, place ∈ typing.layout.board.placesOf [Legend.shift]) ∧
      ((typing.hint t).shiftKeys ≠ [] ↔ (∃ s ∈ (typing.hint t).strokes, s.shifted = true) ∧
        typing.layout.board.placesOf [Legend.shift] ≠ []) ∧
      match typing.layout.board.placesOf [Legend.shift] with
      | [] => (typing.hint t).shiftKeys = []
      | [only] => only ∈ (typing.hint t).shiftKeys ↔ ∃ s ∈ (typing.hint t).strokes, s.shifted = true
      | first :: second :: _ =>
        (second ∈ (typing.hint t).shiftKeys ↔
            ∃ s ∈ (typing.hint t).strokes, s.shifted = true ∧ s.place.2 ≤ 5) ∧
          (first ∈ (typing.hint t).shiftKeys ↔
            ∃ s ∈ (typing.hint t).strokes, s.shifted = true ∧ 6 ≤ s.place.2) := by
  obtain ⟨hstrokes, hheld⟩ := strokes_hint typing t
  rw [hheld]
  refine ⟨?_, ?_, ?_, fun _ => mem_placesOf, placesOf_ordered _ _, nodup_shiftKeys _ _,
    fun _ => mem_placesOf_of_mem_shiftKeys, shiftKeys_ne_nil_iff, mem_shiftKeys _ _⟩
  · rw [locate_eq, hstrokes]
  · rw [hstrokes]
    exact nodup_eraseDups _
  · intro s
    rw [hstrokes]
    exact mem_strokes

end KanaTutor.Typing
