/-
The number of keystrokes when texts are put together. It never falls when a text is appended, and it never
exceeds the keystrokes of the two texts by themselves.

On a kana layout every character has its own keys, and the counts add up. On a romaji layout the keys of two
texts are those of both but for what stands at the cut: a final nasal may get an apostrophe, for which its
pending key is counted; a final small tsu may become one consonant, before a kana of two keys at least; and
two characters may become a digraph, which has a key more than the first and less than both.
-/
import KanaTutor.Keyboard.Hint
import KanaTutor.Proofs.Kana.LocalKeys

namespace KanaTutor

namespace Syllabary

/-! ## Lengths of romaji -/

/-- A romaji has a key at least; that of a digraph has three, and that of a kana by itself at most two, but
for the small kana that are typed with an `x`. -/
theorem entries_length : ∀ e ∈ entries, e.2.toList ≠ [] ∧ (e.1.toList.length = 2 → e.2.toList.length = 3) ∧
    ∀ c, e.1.toList = [c] → c ∉ glides → c ≠ 'っ' → e.2.toList.length ≤ 2 := by
  have hall : (entries.all fun e => !e.2.toList.isEmpty &&
      (e.1.toList.length != 2 || e.2.toList.length == 3) &&
      e.1.toList.all fun c => e.1.toList.length != 1 || glides.contains c || c == 'っ' ||
        e.2.toList.length ≤ 2) = true := by
    decide
  intro e he
  have hentry := List.all_eq_true.1 hall e he
  rw [Bool.and_eq_true, Bool.and_eq_true] at hentry
  obtain ⟨⟨hne, hdigraph⟩, hsingle⟩ := hentry
  refine ⟨by simpa using hne, ?_, ?_⟩
  · intro hlength
    simpa [hlength] using hdigraph
  · intro c hc hglide hs
    simpa [hc, hglide, hs] using hsingle

theorem romaji?_ne_nil {kana romaji : Text} (h : romaji? kana = some romaji) : romaji ≠ [] := by
  obtain ⟨e, he, -, rfl⟩ := mem_of_romaji? h
  exact (entries_length e he).1

theorem length_digraph {first second : Char} {romaji : Text} (h : romaji? [first, second] = some romaji) :
    romaji.length = 3 := by
  obtain ⟨e, he, hkana, rfl⟩ := mem_of_romaji? h
  exact (entries_length e he).2.1 (by rw [hkana]; rfl)

theorem length_glide : ∀ c ∈ glides, ∃ romaji, romaji? [c] = some romaji ∧ romaji.length = 3 := by
  have hall : (glides.all fun c => (romaji? [c]).any (·.length = 3)) = true := by decide
  intro c hc
  obtain ⟨romaji, hromaji, hlength⟩ := (Option.any_eq_true ..).1 (List.all_eq_true.1 hall c hc)
  exact ⟨romaji, hromaji, of_decide_eq_true hlength⟩

theorem geminated_length :
    ∀ e ∈ geminated, ∀ c ∈ e.1.toList, ∃ romaji, romaji? [c] = some romaji ∧ 2 ≤ romaji.length := by
  have hall : (geminated.all fun e => e.1.toList.all fun c => (romaji? [c]).any (2 ≤ ·.length)) = true := by
    decide
  intro e he c hc
  obtain ⟨romaji, hromaji, hlength⟩ :=
    (Option.any_eq_true ..).1 (List.all_eq_true.1 (List.all_eq_true.1 hall e he) c hc)
  exact ⟨romaji, hromaji, of_decide_eq_true hlength⟩

theorem length_of_gemination? {c consonant : Char} (h : gemination? c = some consonant) :
    ∃ romaji, romaji? [c] = some romaji ∧ 2 ≤ romaji.length := by
  unfold gemination? at h
  obtain ⟨e, he, -⟩ := Option.map_eq_some_iff.1 h
  exact geminated_length e (List.mem_of_find?_eq_some he) c (by simpa using List.find?_some he)

end Syllabary

namespace Romanizer

open Syllabary

variable {r : Romanizer}

/-! ## Pending keys -/

/-- The keys that settle a final `n`. -/
def pending (keys : Text) : Nat := if keys.getLast? = some 'n' then 1 else 0

theorem keyCount_eq (t : Text) :
    r.keyCount t = (r.wordsAfter none t).length + pending (r.wordsAfter none t) := by
  rw [← keys_eq_wordsAfter]
  rfl

theorem pending_le (keys : Text) : pending keys ≤ 1 := by
  unfold pending
  split <;> omega

theorem pending_append {keys : Text} (h : keys ≠ []) (front : Text) : pending (front ++ keys) = pending keys := by
  rw [pending, List.getLast?_append, List.getLast?_eq_some_getLast h, Option.some_or, pending,
    List.getLast?_eq_some_getLast h]

/-! ## Lengths of words -/

theorem soloWord_ne_nil (c : Char) (next : Option Char) : r.soloWord c next ≠ [] := by
  unfold soloWord
  split
  · split <;> simp
  · split
    · split <;> simp
    · split
      · rename_i hromaji
        exact romaji?_ne_nil hromaji
      · split
        · simp
        · split <;> simp

theorem soloWord_eq {c : Char} (hn : c ≠ 'ん') (hs : c ≠ 'っ') (next next' : Option Char) :
    r.soloWord c next = r.soloWord c next' := by
  rw [soloWord, if_neg hn, if_neg hs, soloWord, if_neg hn, if_neg hs]

theorem soloWord_of_romaji? {c : Char} {romaji : Text} (hn : c ≠ 'ん') (hs : c ≠ 'っ')
    (h : Syllabary.romaji? [c] = some romaji) (next : Option Char) : r.soloWord c next = romaji := by
  rw [soloWord, if_neg hn, if_neg hs, h]

theorem length_soloWord_le {c : Char} (hc : c ∉ glides) (hs : c ≠ 'っ') (next : Option Char) :
    (r.soloWord c next).length ≤ 2 := by
  unfold soloWord
  split
  · split <;> simp
  · split
    · rename_i romaji hromaji
      obtain ⟨e, he, hkana, rfl⟩ := mem_of_romaji? hromaji
      exact (entries_length e he).2.2 c hkana hc hs
    · split
      · simp
      · split <;> simp

theorem word_none_ne_nil (c : Char) (next : Option Char) : r.word none c next ≠ [] := by
  unfold word
  split
  · rename_i h
    cases h
  · split
    · rename_i hromaji
      obtain ⟨d, -, hd⟩ := Option.bind_eq_some_iff.1 hromaji
      exact romaji?_ne_nil hd
    · exact soloWord_ne_nil c next

theorem wordsAfter_ne_nil (c : Char) (t : Text) : r.wordsAfter none (c :: t) ≠ [] := by
  intro h
  exact word_none_ne_nil c t.head? (List.append_eq_nil_iff.1 h).1

theorem length_wordsAfter_geminated {c consonant : Char} (h : gemination? c = some consonant) (t : Text) :
    2 ≤ (r.wordsAfter none (c :: t)).length := by
  have hword : 2 ≤ (r.word none c t.head?).length := by
    unfold word
    rw [if_neg (by simp)]
    split
    · rename_i hromaji
      obtain ⟨d, -, hd⟩ := Option.bind_eq_some_iff.1 hromaji
      rw [length_digraph hd]
      omega
    · obtain ⟨romaji, hromaji, hlength⟩ := length_of_gemination? h
      have hn : c ≠ 'ん' := by
        rintro rfl
        have hnone : gemination? 'ん' = none := by decide
        rw [hnone] at h
        cases h
      have hs : c ≠ 'っ' := by
        rintro rfl
        have hnone : gemination? 'っ' = none := by decide
        rw [hnone] at h
        cases h
      rw [soloWord_of_romaji? hn hs hromaji]
      exact hlength
  rw [wordsAfter, List.length_append]
  omega

/-! ## Cuts -/

/-- The keys `joined` of a text that is cut in two count at least the keys `before` of its first part, with the
pending one, and at most the keys of both parts by themselves. -/
structure Joins (before joined after : Text) : Prop where
  ne_nil : joined ≠ []
  le : before ≠ [] → before.length + pending before ≤ joined.length
  le_add : joined.length + pending joined ≤ before.length + pending before + (after.length + pending after)

/-- The second character of a digraph has no keys, and none is changed by what follows it. -/
theorem joins_after_digraph {b c d : Char} (h : isDigraph b c = true) (t : Text) :
    Joins (r.word (some b) c none) (r.word (some b) c (some d) ++ r.wordsAfter (some c) (d :: t))
      (r.wordsAfter none (d :: t)) := by
  have hempty : ∀ next, r.word (some b) c next = [] := by
    intro next
    rw [word, if_pos (by simpa using h)]
  rw [hempty, hempty, List.nil_append, wordsAfter_some fun e _ => isDigraph_of_isDigraph h e]
  exact ⟨wordsAfter_ne_nil d t, fun hne => absurd rfl hne, by omega⟩

/-- A cut between the characters of a digraph. -/
theorem joins_in_digraph {before : Option Char} {c d : Char} (hbefore : before.any (isDigraph · c) = false)
    (h : isDigraph c d = true) (t : Text) :
    Joins (r.word before c none) (r.word before c (some d) ++ r.wordsAfter (some c) (d :: t))
      (r.wordsAfter none (d :: t)) := by
  obtain ⟨hglide, hc, hopener⟩ := of_isDigraph h
  obtain ⟨romaji, hromaji⟩ := Option.isSome_iff_exists.1 h
  have hs : c ≠ 'っ' := by
    rintro rfl
    exact hopener (by decide)
  have hfirst : r.word before c none = r.soloWord c none := by simp [word, hbefore]
  have hjoined : r.word before c (some d) ++ r.wordsAfter (some c) (d :: t) = romaji ++ r.wordsAfter (some d) t := by
    simp [word, wordsAfter, hbefore, hromaji, h]
  have hsecond : r.wordsAfter none (d :: t) = r.soloWord d t.head? ++ r.wordsAfter (some d) t := by
    rw [wordsAfter, word_none fun e _ => isDigraph_of_isDigraph h e]
  have hlength : (r.soloWord d t.head?).length = 3 := by
    obtain ⟨glide, hd, hthree⟩ := length_glide d hglide
    have hnd : d ≠ 'ん' := by
      rintro rfl
      exact absurd hglide (by decide)
    have hsd : d ≠ 'っ' := by
      rintro rfl
      exact absurd hglide (by decide)
    rw [soloWord_of_romaji? hnd hsd hd, hthree]
  have htwo : (r.soloWord c none).length ≤ 2 := length_soloWord_le hc hs none
  have hone : 0 < (r.soloWord c none).length := List.length_pos_iff.2 (soloWord_ne_nil c none)
  have hdigraph := length_digraph hromaji
  rw [hfirst, hjoined, hsecond]
  refine ⟨?_, ?_, ?_⟩
  · intro hnil
    rw [(List.append_eq_nil_iff.1 hnil).1] at hdigraph
    cases hdigraph
  · intro _
    have := pending_le (r.soloWord c none)
    rw [List.length_append]
    omega
  · have := pending_le (romaji ++ r.wordsAfter (some d) t)
    rw [List.length_append, List.length_append]
    omega

/-- A cut between two characters that are no digraph. -/
theorem joins_apart {before : Option Char} {c d : Char} (hbefore : before.any (isDigraph · c) = false)
    (h : isDigraph c d = false) (t : Text) :
    Joins (r.word before c none) (r.word before c (some d) ++ r.wordsAfter (some c) (d :: t))
      (r.wordsAfter none (d :: t)) := by
  have hfirst : r.word before c none = r.soloWord c none := by simp [word, hbefore]
  have hcut : r.word before c (some d) = r.soloWord c (some d) := by
    simp [word, hbefore, romaji?_of_isDigraph h]
  have hrest : r.wordsAfter (some c) (d :: t) = r.wordsAfter none (d :: t) := by
    refine wordsAfter_some ?_
    rintro e ⟨⟩
    exact h
  have hne : r.wordsAfter none (d :: t) ≠ [] := wordsAfter_ne_nil d t
  have hpos : 0 < (r.wordsAfter none (d :: t)).length := List.length_pos_iff.2 hne
  rw [hfirst, hcut, hrest]
  refine ⟨?_, ?_, ?_⟩
  · simp [hne]
  · intro _
    rw [List.length_append]
    by_cases hn : c = 'ん'
    · -- the key that settles the nasal is made up for by a key of the next character
      subst hn
      have hnasal : 1 ≤ (r.soloWord 'ん' (some d)).length := List.length_pos_iff.2 (soloWord_ne_nil _ _)
      show 1 + pending ['n'] ≤ _
      have := pending_le ['n']
      omega
    · by_cases hs : c = 'っ'
      · subst hs
        show 3 + 0 ≤ _
        rcases hdouble : gemination? d with _ | consonant
        · have hthree : r.soloWord 'っ' (some d) = ['x', 't', 'u'] := by simp [soloWord, hdouble]
          rw [hthree]
          simp only [List.length_cons, List.length_nil]
          omega
        · have htwo := length_wordsAfter_geminated (r := r) hdouble t
          have hone : r.soloWord 'っ' (some d) = [consonant] := by simp [soloWord, hdouble]
          rw [hone]
          simp only [List.length_cons, List.length_nil]
          omega
      · have := pending_le (r.soloWord c none)
        rw [soloWord_eq hn hs (some d) none]
        omega
  · rw [pending_append hne, List.length_append]
    by_cases hn : c = 'ん'
    · -- an apostrophe takes the place of the pending key
      subst hn
      show _ ≤ 1 + 1 + _
      have htwo : (r.soloWord 'ん' (some d)).length ≤ 2 := length_soloWord_le (by decide) (by decide) _
      omega
    · by_cases hs : c = 'っ'
      · subst hs
        show _ ≤ 3 + 0 + _
        have hthree : (r.soloWord 'っ' (some d)).length ≤ 3 := by
          rcases hdouble : gemination? d with _ | consonant <;> simp [soloWord, hdouble]
        omega
      · rw [soloWord_eq hn hs (some d) none]
        omega

theorem joins_cut (before : Option Char) (c d : Char) (t : Text) :
    Joins (r.word before c none) (r.word before c (some d) ++ r.wordsAfter (some c) (d :: t))
      (r.wordsAfter none (d :: t)) := by
  cases hbefore : before.any (isDigraph · c) with
  | true =>
    obtain ⟨b, rfl, hb⟩ := (Option.any_eq_true ..).1 hbefore
    exact joins_after_digraph hb t
  | false =>
    cases h : isDigraph c d with
    | true => exact joins_in_digraph hbefore h t
    | false => exact joins_apart hbefore h t

/-- The words up to a character do not depend on what follows it. -/
theorem wordsAfter_cut (before : Option Char) (s : Text) (c : Char) :
    ∃ front before', ∀ t, r.wordsAfter before (s ++ c :: t) =
      front ++ (r.word before' c t.head? ++ r.wordsAfter (some c) t) := by
  induction s generalizing before with
  | nil => exact ⟨[], before, fun _ => rfl⟩
  | cons b s ih =>
    obtain ⟨front, before', hfront⟩ := ih (some b)
    refine ⟨r.word before b (s ++ [c]).head? ++ front, before', ?_⟩
    intro t
    have hhead : (s ++ c :: t).head? = (s ++ [c]).head? := by cases s <;> rfl
    rw [List.cons_append, wordsAfter, hfront, hhead, List.append_assoc]

/-! ## Counts -/

theorem keyCount_nil : r.keyCount [] = 0 := by
  rw [keyCount_eq]
  rfl

/-- The keys of a text count no less than those of its front, and no more than those of its parts. -/
theorem keyCount_append (s t : Text) :
    r.keyCount s ≤ r.keyCount (s ++ t) ∧ r.keyCount (s ++ t) ≤ r.keyCount s + r.keyCount t := by
  rcases List.eq_nil_or_concat s with rfl | ⟨s, c, rfl⟩
  · rw [keyCount_nil, List.nil_append]
    omega
  · cases t with
    | nil =>
      rw [keyCount_nil, List.append_nil]
      omega
    | cons d t =>
      obtain ⟨front, before, hfront⟩ := wordsAfter_cut (r := r) none s c
      have hbefore : r.wordsAfter none (s ++ [c]) = front ++ r.word before c none := by
        rw [hfront]
        simp [wordsAfter]
      have hjoins := joins_cut (r := r) before c d t
      have hadd := hjoins.le_add
      -- the joined keys are not empty, so what is pending does not depend on the front
      rw [List.concat_eq_append, List.append_assoc, List.singleton_append, keyCount_eq, keyCount_eq, keyCount_eq,
        hbefore, hfront, List.head?_cons, pending_append hjoins.ne_nil, List.length_append, List.length_append]
      have hpos := List.length_pos_iff.2 hjoins.ne_nil
      cases hword : r.word before c none with
      | nil =>
        rw [hword] at hadd
        have := pending_le (front ++ [])
        simp only [List.length_nil, show pending [] = 0 from rfl] at hadd ⊢
        omega
      | cons key keys =>
        have hle := hjoins.le
        rw [hword] at hadd hle
        have := hle (List.cons_ne_nil key keys)
        rw [pending_append (by simp)]
        omega

end Romanizer

namespace Typing

theorem keyCount_append_kana {typing : Typing} (h : typing.layout.kind = .kana) (s t : Text) :
    typing.keyCount (s ++ t) = typing.keyCount s + typing.keyCount t := by
  unfold keyCount
  rw [h]
  dsimp only
  rw [List.flatMap_append, List.length_append]

/-- A text takes no fewer keystrokes than its front and no more than its two parts by themselves; on a kana
layout it takes exactly as many as both. -/
theorem keyCount_monotone_subadditive (typing : Typing) (s t : Text) :
    typing.keyCount s ≤ typing.keyCount (s ++ t) ∧
      typing.keyCount (s ++ t) ≤ typing.keyCount s + typing.keyCount t ∧
      (typing.layout.kind = .kana → typing.keyCount (s ++ t) = typing.keyCount s + typing.keyCount t) := by
  cases h : typing.layout.kind with
  | romaji =>
    obtain ⟨hle, hadd⟩ := Romanizer.keyCount_append (r := typing.romanizer) s t
    have hcount : ∀ t, typing.keyCount t = typing.romanizer.keyCount t := by
      intro t
      rw [keyCount, h]
    rw [hcount, hcount, hcount]
    exact ⟨hle, hadd, fun hkana => nomatch hkana⟩
  | kana =>
    have hadd := keyCount_append_kana h s t
    exact ⟨by omega, by omega, fun _ => hadd⟩

end Typing

end KanaTutor
