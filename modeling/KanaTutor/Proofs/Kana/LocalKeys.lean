/-
Romanization is local. The keys of a text are the words of its characters one after the other, and the
word of a character depends on nothing but the character and its two neighbours: a digraph's keys stand
with its first character, a moraic nasal and a small tsu look at the next character only, and a
long-vowel mark is always one hyphen.

The proof follows the morae. A mora spells the front of a text if the words of the text are the keys of
the mora and then the words of what the mora leaves. Lengthening a vowel and putting a nasal or a doubled
consonant in front both keep this, whatever was merged before.
-/
import KanaTutor.Proofs.Kana.Syllabary

namespace KanaTutor.Romanizer

open Syllabary

/-! ## Words of characters -/

/-- The keys of a character that belongs to no digraph, before `next`. -/
def soloWord (r : Romanizer) (c : Char) (next : Option Char) : Text :=
  if c = 'ん' then if next.any r.needsApostrophe then ['n', '\''] else ['n']
  else if c = 'っ' then
    match next.bind gemination? with
    | some consonant => [consonant]
    | none => ['x', 't', 'u']
  else
    match Syllabary.romaji? [c] with
    | some romaji => romaji
    | none =>
      if c = '\n' then [returnSymbol]
      else
        match plainVowel? c with
        | some vowel => [vowel, '-']
        | none => [Width.half c]

/-- The keys of a character between its neighbours. The second character of a digraph adds none. -/
def word (r : Romanizer) (before : Option Char) (c : Char) (next : Option Char) : Text :=
  if before.any (isDigraph · c) then []
  else
    match next.bind fun d => Syllabary.romaji? [c, d] with
    | some romaji => romaji
    | none => r.soloWord c next

/-- The word at a position of a text. -/
def wordAt (r : Romanizer) (t : Text) (i : Nat) : Text :=
  match t[i]? with
  | some c => r.word (if i = 0 then none else t[i - 1]?) c t[i + 1]?
  | none => []

/-- The words of a text that follows `before`. -/
def wordsAfter (r : Romanizer) (before : Option Char) : Text → Text
  | [] => []
  | c :: rest => r.word before c rest.head? ++ r.wordsAfter (some c) rest

variable {r : Romanizer}

/-! ## Neighbours -/

theorem word_none {c : Char} {next : Option Char} (h : ∀ d ∈ next, isDigraph c d = false) :
    r.word none c next = r.soloWord c next := by
  cases next with
  | none => rfl
  | some d => simp [word, romaji?_of_isDigraph (h d rfl)]

/-- What precedes a text shows in its words only if it makes a digraph with the first character. -/
theorem wordsAfter_some {c : Char} {t : Text} (h : ∀ d ∈ t.head?, isDigraph c d = false) :
    r.wordsAfter (some c) t = r.wordsAfter none t := by
  cases t with
  | nil => rfl
  | cons d rest => simp [wordsAfter, word, h d rfl]

/-- A character that makes no digraph with the next one. -/
theorem wordsAfter_cons {c : Char} {t : Text} (h : ∀ d ∈ t.head?, isDigraph c d = false) :
    r.wordsAfter none (c :: t) = r.soloWord c t.head? ++ r.wordsAfter none t := by
  rw [wordsAfter, word_none h, wordsAfter_some h]

theorem wordsAfter_opener {c : Char} (h : c ∈ openers) (t : Text) :
    r.wordsAfter none (c :: t) = r.soloWord c t.head? ++ r.wordsAfter none t :=
  wordsAfter_cons fun d _ => isDigraph_opener h d

/-- A digraph: its keys, and then what follows its second character. -/
theorem wordsAfter_digraph {c d : Char} {rest romaji : Text} (h : Syllabary.romaji? [c, d] = some romaji) :
    r.wordsAfter none (c :: d :: rest) = romaji ++ r.wordsAfter none rest := by
  have hcd : isDigraph c d = true := by simp [isDigraph, h]
  rw [wordsAfter, wordsAfter, wordsAfter_some fun e _ => isDigraph_of_isDigraph hcd e]
  simp [word, h, hcd]

/-! ## Single characters -/

theorem soloWord_longMark (next : Option Char) : r.soloWord 'ー' next = ['-'] := by
  have h : Syllabary.romaji? ['ー'] = some ['-'] := by decide +kernel
  simp [soloWord, h]

theorem hyphenize_romajiOf {c : Char} (hn : c ≠ 'ん') (hs : c ≠ 'っ') (next : Option Char) :
    hyphenize (romajiOf c) = r.soloWord c next := by
  unfold romajiOf soloWord
  rw [if_neg hn, if_neg hs]
  cases h : Syllabary.romaji? [c] with
  | some romaji => exact hyphenize_romaji? h
  | none =>
    dsimp only
    split
    · rfl
    · rw [hyphenize_cons, keysOf]
      cases hv : plainVowel? c with
      | some vowel => rw [half_of_plainVowel hv, hv]; rfl
      | none => rw [plainVowel?_half hv]; rfl

/-! ## Morae -/

/-- The mora types the front of the text: its keys are the words of the characters it takes. -/
def Spells (r : Romanizer) (t : Text) (m : Mora) : Prop :=
  r.wordsAfter none t = hyphenize m.romaji ++ r.wordsAfter none (t.drop m.consumed)

/-- A lengthened vowel is typed as the vowel and the hyphen of the long-vowel mark. -/
theorem Spells.lengthen {t : Text} {m : Mora} (h : r.Spells t m) : r.Spells t (m.lengthen t) := by
  unfold Mora.lengthen
  split
  · rename_i w hmark hlast
    obtain ⟨v, hv, hw⟩ := Option.bind_eq_some_iff.1 hlast
    obtain ⟨front, hfront⟩ := List.getLast?_eq_some_iff.1 hv
    have hdrop : t.drop m.consumed = 'ー' :: t.drop (m.consumed + 1) := by
      obtain ⟨hlt, hget⟩ := List.getElem?_eq_some_iff.1 hmark
      rw [List.drop_eq_getElem_cons hlt, hget]
    have hkeys : hyphenize m.romaji ++ ['-'] = hyphenize (m.romaji.dropLast ++ [w]) := by
      rw [hfront, List.dropLast_concat, hyphenize_append, hyphenize_append]
      simp [hyphenize, keysOf_vowel hw, keysOf_circumflexed hw]
    unfold Spells at h ⊢
    rw [h, hdrop, wordsAfter_opener (by decide), soloWord_longMark, ← List.append_assoc, hkeys]
  · exact h

/-- A key in front of a mora, where the character before its text is typed by this key. -/
theorem Spells.after {c key : Char} {t : Text} {m : Mora} (h : r.Spells t m) (hc : c ∈ openers)
    (hkey : r.soloWord c t.head? = keysOf key) : r.Spells (c :: t) (m.after key) := by
  unfold Spells at h ⊢
  rw [wordsAfter_opener hc, hkey, h, Mora.after, hyphenize_cons, List.append_assoc, List.drop_succ_cons]

/-- A mora of one character that makes no digraph with the next one. -/
theorem spells_single {c : Char} {t keys : Text} (h : ∀ d ∈ t.head?, isDigraph c d = false)
    (hkeys : r.soloWord c t.head? = hyphenize keys) : r.Spells (c :: t) (.single keys) := by
  unfold Spells
  rw [wordsAfter_cons h, hkeys]
  rfl

/-- The first mora, its vowel not yet lengthened, types the front of the text. -/
theorem spells_of_bareMora? {t : Text} {m : Mora} (h : r.bareMora? t = some m) : r.Spells t m := by
  fun_induction bareMora? r t generalizing m with
  | case1 => cases h
  | case2 rest hnext =>
    -- a nasal that needs an apostrophe
    cases h
    exact spells_single (fun d _ => isDigraph_opener (by decide) d) (by simp [soloWord, hnext]; rfl)
  | case3 rest hnext next hbare ih =>
    -- a nasal completed by the next mora, whose vowel is lengthened before
    cases h
    refine (ih hbare).lengthen.after (by decide) ?_
    simp [soloWord, hnext]; rfl
  | case4 rest hnext hbare ih =>
    cases h
    exact spells_single (fun d _ => isDigraph_opener (by decide) d) (by simp [soloWord, hnext]; rfl)
  | case5 rest consonant hdouble ih =>
    obtain ⟨next, hnext, rfl⟩ := Option.map_eq_some_iff.1 h
    obtain ⟨d, -, hd⟩ := Option.bind_eq_some_iff.1 hdouble
    refine (ih hnext).after (by decide) ?_
    simp [soloWord, hdouble, keysOf_gemination? hd]
  | case6 rest hdouble =>
    cases h
    have hsolo : r.soloWord 'っ' rest.head? = ['x', 't', 'u'] := by simp [soloWord, hdouble]
    exact spells_single (fun d _ => isDigraph_opener (by decide) d) (hsolo.trans (by decide +kernel))
  | case7 first rest hn hs romaji hdigraph =>
    cases h
    match rest, hdigraph with
    | second :: rest, hdigraph =>
      unfold Spells
      rw [wordsAfter_digraph hdigraph, hyphenize_romaji? hdigraph]
      rfl
  | case8 first rest hn hs hdigraph =>
    cases h
    refine spells_single (fun d hd => ?_) (hyphenize_romajiOf (by simpa using hn) (by simpa using hs) _).symm
    match rest, hd with
    | second :: rest, rfl => simpa [isDigraph, digraph?] using hdigraph

/-- A text that is not empty has a first mora. -/
theorem isSome_bareMora? (c : Char) (t : Text) : (r.bareMora? (c :: t)).isSome := by
  generalize hs : c :: t = s
  fun_induction bareMora? r s generalizing c t with
  | case1 => cases hs
  | case5 rest consonant hdouble ih =>
    -- the consonant is doubled only before a kana, so a mora follows
    match rest, hdouble with
    | d :: rest, _ => simpa using ih d rest rfl
  | case2 | case3 | case4 | case6 | case7 | case8 => rfl

theorem mora?_cons (r : Romanizer) (c : Char) (t : Text) : ∃ m, r.mora? (c :: t) = some m := by
  obtain ⟨m, hm⟩ := Option.isSome_iff_exists.1 (isSome_bareMora? (r := r) c t)
  exact ⟨m.lengthen (c :: t), by rw [mora?, hm]; rfl⟩

theorem spells_of_mora? {t : Text} {m : Mora} (h : r.mora? t = some m) : r.Spells t m := by
  obtain ⟨bare, hbare, rfl⟩ := Option.map_eq_some_iff.1 h
  exact (spells_of_bareMora? hbare).lengthen

/-! ## Texts -/

theorem morae_of_mora? {c : Char} {t : Text} {m : Mora} (h : r.mora? (c :: t) = some m) :
    r.morae (c :: t) = m :: r.morae ((c :: t).drop m.consumed) := by
  rw [morae.eq_def r (c :: t)]
  split
  · rename_i hnil; cases hnil
  · rename_i hnone; rw [h] at hnone; cases hnone
  · rename_i heq hsome
    cases heq
    rw [h] at hsome; cases hsome
    rfl

theorem keys_eq_wordsAfter (t : Text) : r.keys t = r.wordsAfter none t := by
  induction t using morae.induct (r := r) with
  | case1 => rw [keys, romanize, morae]; rfl
  | case2 c rest hmora =>
    obtain ⟨m, hm⟩ := mora?_cons r c rest
    rw [hm] at hmora; cases hmora
  | case3 c rest m hmora ih =>
    rw [keys, romanize, morae_of_mora? hmora, List.flatMap_cons, hyphenize_append]
    rw [keys, romanize] at ih
    rw [ih]
    exact (spells_of_mora? hmora).symm

theorem wordsAfter_eq_flatMap (before : Option Char) (t : Text) :
    r.wordsAfter before t = (List.range t.length).flatMap fun i =>
      match t[i]? with
      | some c => r.word (if i = 0 then before else t[i - 1]?) c t[i + 1]?
      | none => [] := by
  induction t generalizing before with
  | nil => rfl
  | cons c rest ih =>
    rw [wordsAfter, ih, List.length_cons, List.range_succ_eq_map, List.flatMap_cons, List.flatMap_map]
    congr 1
    · simp [List.head?_eq_getElem?]
    · congr 1
      funext i
      cases i <;> rfl

/-- The keys of a text are the words of its characters, each fixed by the character and its neighbours. -/
theorem hyphenize_romanize (r : Romanizer) (t : Text) :
    hyphenize (r.romanize t) = (List.range t.length).flatMap (r.wordAt t) :=
  (keys_eq_wordsAfter t).trans (wordsAfter_eq_flatMap none t)

end KanaTutor.Romanizer
