/-
Facts about the syllabary that hold entry by entry: what romaji is made of, and which kana begin and end
its digraphs. A digraph ends in a small ya, yu or yo, which begins none, so digraphs never overlap.
-/
import KanaTutor.Kana.Romaji

namespace KanaTutor

/-! ## Keys of romaji -/

theorem hyphenize_append (a b : Text) : hyphenize (a ++ b) = hyphenize a ++ hyphenize b :=
  List.flatMap_append ..

theorem hyphenize_cons (c : Char) (t : Text) : hyphenize (c :: t) = keysOf c ++ hyphenize t := rfl

/-- A text without circumflexed vowels is typed as it is. -/
theorem hyphenize_eq_self {t : Text} (h : ∀ c ∈ t, plainVowel? c = none) : hyphenize t = t := by
  induction t with
  | nil => rfl
  | cons c rest ih =>
    obtain ⟨hc, hrest⟩ := List.forall_mem_cons.1 h
    rw [hyphenize_cons, ih hrest, keysOf, hc]
    rfl

/-- A circumflexed vowel is typed as its vowel and a hyphen. -/
theorem keysOf_circumflexed {v w : Char} (h : circumflexed? v = some w) : keysOf w = [v, '-'] := by
  unfold circumflexed? at h
  split at h <;> cases h <;> rfl

/-- A vowel that can take a circumflex is typed as itself. -/
theorem keysOf_vowel {v w : Char} (h : circumflexed? v = some w) : keysOf v = [v] := by
  unfold circumflexed? at h
  split at h <;> first | rfl | cases h

/-! ## Half-width forms -/

/-- The vowels with a circumflex lie above the code points of ASCII and the yen sign. -/
theorem lt_of_plainVowel {c v : Char} (h : plainVowel? c = some v) : 0xE2 ≤ c.toNat ∧ c.toNat ≤ 0xFB := by
  unfold plainVowel? at h
  split at h <;> first | decide | cases h

theorem toNat_half? {c d : Char} (h : Width.half? c = some d) : 0x3000 ≤ c.toNat ∧ d.toNat < 0xE2 := by
  unfold Width.half? at h
  split at h
  · rename_i hc
    have hlo : 0xFF01 ≤ c.toNat := by simpa using UInt32.le_iff_toNat_le.1 (Char.le_def.1 hc.1)
    have hhi : c.toNat ≤ 0xFF5E := by simpa using UInt32.le_iff_toNat_le.1 (Char.le_def.1 hc.2)
    rw [Option.some.injEq] at h
    subst h
    have hv : (c.toNat - 0xFEE0).isValidChar := by left; omega
    have hd : (Char.ofNat (c.toNat - 0xFEE0)).toNat = c.toNat - 0xFEE0 := by rw [Char.ofNat, dif_pos hv]; rfl
    omega
  · split at h
    · rename_i hc; cases h; subst hc; decide
    · split at h
      · rename_i hc; cases h; subst hc; decide
      · cases h

/-- A vowel with a circumflex has no half-width counterpart. -/
theorem half_of_plainVowel {c v : Char} (h : plainVowel? c = some v) : Width.half c = c := by
  unfold Width.half
  cases hd : Width.half? c with
  | none => rfl
  | some d => have := toNat_half? hd; have := lt_of_plainVowel h; omega

/-- No half-width counterpart is a vowel with a circumflex. -/
theorem plainVowel?_half {c : Char} (h : plainVowel? c = none) : plainVowel? (Width.half c) = none := by
  unfold Width.half
  cases hd : Width.half? c with
  | none => exact h
  | some d =>
    cases hv : plainVowel? d with
    | none => exact hv
    | some v => have := toNat_half? hd; have := lt_of_plainVowel hv; omega

namespace Syllabary

/-! ## Entries -/

/-- What is looked up is an entry. -/
theorem mem_of_romaji? {kana romaji : Text} (h : romaji? kana = some romaji) :
    ∃ e ∈ entries, e.1.toList = kana ∧ e.2.toList = romaji := by
  unfold romaji? at h
  obtain ⟨e, he, rfl⟩ := Option.map_eq_some_iff.1 h
  exact ⟨e, List.mem_of_find?_eq_some he, by simpa using List.find?_some he, rfl⟩

theorem entries_plain : ∀ e ∈ entries, ∀ c ∈ e.2.toList, plainVowel? c = none := by
  have hall : (entries.all fun e => e.2.toList.all fun c => plainVowel? c = none) = true := by decide +kernel
  intro e he c hc
  exact of_decide_eq_true (List.all_eq_true.1 (List.all_eq_true.1 hall e he) c hc)

/-- The romaji of an entry has no circumflexed vowel. -/
theorem hyphenize_romaji? {kana romaji : Text} (h : romaji? kana = some romaji) : hyphenize romaji = romaji := by
  obtain ⟨e, he, -, rfl⟩ := mem_of_romaji? h
  exact hyphenize_eq_self (entries_plain e he)

/-! ## Digraphs -/

/-- The two characters are an entry together. -/
def isDigraph (first second : Char) : Bool := (romaji? [first, second]).isSome

/-- The small kana that digraphs end in. -/
def glides : List Char := ['ゃ', 'ゅ', 'ょ']

/-- The kana that no digraph begins with although something depends on what follows them. -/
def openers : List Char := ['ん', 'っ', 'ー']

theorem entries_digraph :
    ∀ e ∈ entries, e.1.toList.length = 2 →
      (∀ d ∈ e.1.toList.drop 1, d ∈ glides) ∧ ∀ c ∈ e.1.toList.take 1, c ∉ glides ∧ c ∉ openers := by
  have hall : (entries.all fun e => e.1.toList.length != 2 || (e.1.toList.drop 1).all glides.contains &&
      (e.1.toList.take 1).all fun c => !glides.contains c && !openers.contains c) = true := by
    decide +kernel
  intro e he hlength
  have hentry := List.all_eq_true.1 hall e he
  simpa [hlength] using hentry

theorem of_isDigraph {first second : Char} (h : isDigraph first second = true) :
    second ∈ glides ∧ first ∉ glides ∧ first ∉ openers := by
  obtain ⟨romaji, hr⟩ := Option.isSome_iff_exists.1 h
  obtain ⟨e, he, hk, -⟩ := mem_of_romaji? hr
  have := entries_digraph e he (by rw [hk]; rfl)
  rw [hk] at this
  simpa using this

/-- What ends a digraph begins none. -/
theorem isDigraph_of_isDigraph {first second : Char} (h : isDigraph first second = true) (c : Char) :
    isDigraph second c = false := by
  cases hc : isDigraph second c with
  | false => rfl
  | true => exact absurd (of_isDigraph h).1 (of_isDigraph hc).2.1

theorem isDigraph_opener {first : Char} (h : first ∈ openers) (c : Char) : isDigraph first c = false := by
  cases hc : isDigraph first c with
  | false => rfl
  | true => exact absurd h (of_isDigraph hc).2.2

theorem romaji?_of_isDigraph {first second : Char} (h : isDigraph first second = false) :
    romaji? [first, second] = none := by
  simpa [isDigraph] using h

/-! ## Small tsu -/

theorem geminated_plain : ∀ e ∈ geminated, plainVowel? e.2 = none := by decide

/-- The consonant that a small tsu doubles is typed as itself. -/
theorem keysOf_gemination? {next consonant : Char} (h : gemination? next = some consonant) :
    keysOf consonant = [consonant] := by
  unfold gemination? at h
  obtain ⟨e, he, rfl⟩ := Option.map_eq_some_iff.1 h
  rw [keysOf, geminated_plain e (List.mem_of_find?_eq_some he)]

end Syllabary

end KanaTutor
