/-
Keys can be read back. A decoder takes the keys syllable by syllable: a syllable that is the romaji of an
entry stands for its kana, and any other begins with a moraic nasal or with the consonant that a small tsu
doubles. What it reads off the keys of a text is the text, so that no two texts of the syllabary have the
same keys.

The reason is that the romaji of an entry is closed: it is consonants and then one character that is none.
A nasal joins the syllable after it only before the kana that take an apostrophe, and no entry begins with
a consonant twice.
-/
import KanaTutor.Proofs.Kana.LocalKeys
import Mathlib.Data.List.Nodup

namespace KanaTutor.Syllabary

/-! ## Decoding -/

/-- The characters of the kana and digraphs. -/
def characters : Text := entries.flatMap (·.1.toList)

/-- The characters that romaji goes on after. -/
def consonants : Text := "bdghkmnprstwxyz".toList

/-- The first syllable of keys: the consonants that they begin with, and the character after them. -/
def syllable (keys : Text) : Text := keys.take ((keys.takeWhile consonants.contains).length + 1)

/-- The kana or digraph that a romaji is typed for. -/
def kana? (romaji : Text) : Option Text :=
  (entries.find? fun (_, r) => r.toList = romaji).map fun (kana, _) => kana.toList

/-- The kana of a key that no entry begins with as it stands, and the keys after it: a moraic nasal, with or
without its apostrophe, or a small tsu, whose key doubles the next one. -/
def opener? : Text → Option (Text × Text)
  | [] => none
  | key :: rest =>
    if key = 'n' then some (['ん'], if rest.head? = some '\'' then rest.tail else rest)
    else some (['っ'], rest)

/-- The kana at the front of keys, and the keys after it. -/
def front? (keys : Text) : Option (Text × Text) :=
  match kana? (syllable keys) with
  | some kana => some (kana, keys.drop (syllable keys).length)
  | none => opener? keys

theorem length_of_opener? {keys kana rest : Text} (h : opener? keys = some (kana, rest)) :
    rest.length < keys.length := by
  cases keys with
  | nil => cases h
  | cons key keys =>
    have htail : keys.tail.length ≤ keys.length := by simp
    rw [opener?] at h
    split at h
    · cases h
      split
      · exact Nat.lt_succ_of_le htail
      · exact Nat.lt_succ_self _
    · cases h
      exact Nat.lt_succ_self _

theorem length_of_front? {keys kana rest : Text} (h : front? keys = some (kana, rest)) :
    rest.length < keys.length := by
  unfold front? at h
  split at h
  · rename_i hkana
    cases h
    cases keys with
    | nil =>
      have hnone : kana? (syllable []) = none := by decide
      rw [hnone] at hkana
      cases hkana
    | cons key keys =>
      simp only [syllable, List.length_drop, List.length_take, List.length_cons]
      omega
  · exact length_of_opener? h

/-- The text that keys are typed for. -/
def decode (keys : Text) : Text :=
  match _h : front? keys with
  | some (kana, rest) => kana ++ decode rest
  | none => []
termination_by keys.length
decreasing_by exact length_of_front? _h

theorem decode_of_front? {keys kana rest : Text} (h : front? keys = some (kana, rest)) :
    decode keys = kana ++ decode rest := by
  rw [decode.eq_def]
  split
  · rename_i heq
    rw [h] at heq
    cases heq
    rfl
  · rename_i heq
    rw [h] at heq
    cases heq

theorem decode_nil : decode [] = [] := by
  have hfront : front? [] = none := by decide
  rw [decode.eq_def]
  split
  · rename_i heq
    rw [hfront] at heq
    cases heq
  · rfl

/-! ## Syllables -/

/-- The keys are one syllable: consonants, and then a character that is neither one nor an apostrophe. -/
def IsSyllable (keys : Text) : Prop :=
  ∃ front last, keys = front ++ [last] ∧ (∀ c ∈ front, c ∈ consonants) ∧ last ∉ consonants ∧ last ≠ '\''

theorem syllable_cons {c : Char} (h : c ∈ consonants) (keys : Text) : syllable (c :: keys) = c :: syllable keys := by
  have hc : consonants.contains c = true := List.contains_iff_mem.2 h
  rw [syllable, List.takeWhile_cons_of_pos hc, List.length_cons, List.take_succ_cons, syllable]

theorem syllable_append {keys : Text} (h : IsSyllable keys) (rest : Text) : syllable (keys ++ rest) = keys := by
  obtain ⟨front, last, rfl, hfront, hlast, -⟩ := h
  induction front with
  | nil =>
    have hc : ¬consonants.contains last = true := by simpa using hlast
    rw [List.nil_append, List.singleton_append, syllable, List.takeWhile_cons_of_neg hc]
    rfl
  | cons c front ih =>
    obtain ⟨hc, hothers⟩ := List.forall_mem_cons.1 hfront
    rw [List.cons_append, List.cons_append, syllable_cons hc, ih hothers]

theorem IsSyllable.head_ne {keys : Text} (h : IsSyllable keys) (rest : Text) :
    (keys ++ rest).head? ≠ some '\'' := by
  obtain ⟨front, last, rfl, hfront, -, hlast⟩ := h
  cases front with
  | nil => simpa using hlast
  | cons c front =>
    intro hc
    have hc : c = '\'' := by simpa using hc
    have hmem : c ∈ consonants := hfront c (by simp)
    rw [hc] at hmem
    exact absurd hmem (by decide)

/-! ## Entries -/

/-- The kana before which a moraic nasal takes an apostrophe whatever the romanizer. -/
def vowelsAndYa : Text := "あいうえおやゆよ".toList

theorem entries_nodup : (entries.map (·.2.toList)).Nodup := by decide +kernel

theorem mem_of_kana? {kana romaji : Text} (h : kana? romaji = some kana) :
    ∃ e ∈ entries, e.1.toList = kana ∧ e.2.toList = romaji := by
  unfold kana? at h
  obtain ⟨e, he, rfl⟩ := Option.map_eq_some_iff.1 h
  exact ⟨e, List.mem_of_find?_eq_some he, rfl, by simpa using List.find?_some he⟩

/-- No two entries have the same romaji. -/
theorem kana?_entry {e : String × String} (he : e ∈ entries) : kana? e.2.toList = some e.1.toList := by
  unfold kana?
  rcases hfind : entries.find? fun (_, r) => r.toList = e.2.toList with _ | e'
  · rw [List.find?_eq_none] at hfind
    simpa using hfind e he
  · have hmem := List.mem_of_find?_eq_some hfind
    have hromaji : e'.2.toList = e.2.toList := by simpa using List.find?_some hfind
    rw [List.inj_on_of_nodup_map entries_nodup hmem he hromaji] at hfind
    rw [hfind]
    rfl

theorem entries_single : ∀ e ∈ entries, ∀ c ∈ e.1.toList, ∃ e' ∈ entries, e'.1.toList = [c] := by
  have hall : (entries.all fun e => e.1.toList.length = 1 ||
      e.1.toList.all fun c => entries.any fun e' => e'.1.toList = [c]) = true := by
    decide
  intro e he c hc
  rcases Bool.or_eq_true_iff.1 (List.all_eq_true.1 hall e he) with hlength | hchars
  · obtain ⟨d, hd⟩ := List.length_eq_one_iff.1 (of_decide_eq_true hlength)
    rw [hd, List.mem_singleton] at hc
    exact ⟨e, he, by rw [hd, hc]⟩
  · simpa using List.all_eq_true.1 hchars c hc

theorem romaji?_character {c : Char} (h : c ∈ characters) : ∃ romaji, romaji? [c] = some romaji := by
  obtain ⟨e, he, hc⟩ := List.mem_flatMap.1 h
  obtain ⟨e', he', hsingle⟩ := entries_single e he c hc
  unfold romaji?
  rcases hfind : entries.find? fun (key, _) => key.toList = [c] with _ | found
  · rw [List.find?_eq_none] at hfind
    simpa [hsingle] using hfind e' he'
  · exact ⟨found.2.toList, by rw [hfind]; rfl⟩

theorem entries_isSyllable : ∀ e ∈ entries, e.1.toList ≠ ['ん'] → IsSyllable e.2.toList := by
  have hall : (entries.all fun e => e.1.toList = ['ん'] || e.2.toList.dropLast.all consonants.contains &&
      e.2.toList.getLast?.any fun c => !consonants.contains c && c != '\'') = true := by
    decide
  intro e he hn
  have hentry := List.all_eq_true.1 hall e he
  rw [decide_eq_false hn, Bool.false_or, Bool.and_eq_true, Option.any_eq_true] at hentry
  obtain ⟨hfront, last, hget, hlast⟩ := hentry
  obtain ⟨front, hromaji⟩ := List.getLast?_eq_some_iff.1 hget
  rw [hromaji] at hfront ⊢
  simp at hfront hlast
  exact ⟨front, last, rfl, hfront, hlast⟩

theorem entries_isChain : ∀ e ∈ entries, e.2.toList.IsChain (· ≠ ·) := by
  have hall : (entries.all fun e => decide (e.2.toList.IsChain (· ≠ ·))) = true := by decide
  intro e he
  exact of_decide_eq_true (List.all_eq_true.1 hall e he)

theorem kana?_double (key : Char) (keys : Text) : kana? (key :: key :: keys) = none := by
  cases h : kana? (key :: key :: keys) with
  | none => rfl
  | some kana =>
    obtain ⟨e, he, -, hromaji⟩ := mem_of_kana? h
    have hchain := entries_isChain e he
    rw [hromaji, List.isChain_cons_cons] at hchain
    exact absurd rfl hchain.1

theorem kana?_nasal_double (key : Char) (keys : Text) : kana? ('n' :: key :: key :: keys) = none := by
  cases h : kana? ('n' :: key :: key :: keys) with
  | none => rfl
  | some kana =>
    obtain ⟨e, he, -, hromaji⟩ := mem_of_kana? h
    have hchain := entries_isChain e he
    rw [hromaji, List.isChain_cons_cons, List.isChain_cons_cons] at hchain
    exact absurd rfl hchain.2.1

/-- The romaji of the vowels and of the ya row, to which an `n` in front makes other entries. -/
def joined : List Text := ["a", "i", "u", "e", "o", "ya", "yu", "yo"].map String.toList

theorem entries_joined : ∀ e ∈ entries,
    (∀ romaji, e.2.toList = 'n' :: romaji → romaji = [] ∨ romaji ∈ joined) ∧
      (e.2.toList ∈ joined → ∃ c ∈ e.1.toList.head?, c ∈ vowelsAndYa) := by
  have hall : (entries.all fun e => (e.2.toList.head? != some 'n' || e.2.toList.tail ∈ [] :: joined) &&
      (e.2.toList ∉ joined || e.1.toList.head?.any vowelsAndYa.contains)) = true := by
    decide
  intro e he
  have hentry := List.all_eq_true.1 hall e he
  rw [Bool.and_eq_true] at hentry
  constructor
  · intro romaji hromaji
    simpa [hromaji] using hentry.1
  · intro hjoined
    obtain ⟨c, hc, hmem⟩ := (Option.any_eq_true ..).1 (by simpa [hjoined] using hentry.2)
    exact ⟨c, hc, by simpa using hmem⟩

/-- An `n` before the romaji of an entry makes an entry only if the kana takes an apostrophe. -/
theorem kana?_nasal {e : String × String} (he : e ∈ entries) (h : ∀ c ∈ e.1.toList.head?, c ∉ vowelsAndYa)
    (hne : e.2.toList ≠ []) : kana? ('n' :: e.2.toList) = none := by
  cases hkana : kana? ('n' :: e.2.toList) with
  | none => rfl
  | some kana =>
    obtain ⟨e', he', -, hromaji⟩ := mem_of_kana? hkana
    rcases (entries_joined e' he').1 _ hromaji with hnil | hjoined
    · exact absurd hnil hne
    · obtain ⟨c, hc, hmem⟩ := (entries_joined e he).2 hjoined
      exact absurd hmem (h c hc)

/-- The romaji of a kana before which a small tsu is typed as a consonant begins with this consonant. -/
theorem entries_geminated : ∀ e ∈ entries, ∀ c ∈ e.1.toList.head?, ∀ consonant, gemination? c = some consonant →
    e.2.toList.head? = some consonant := by
  have hall : (entries.all fun e => (e.1.toList.head?.bind gemination?).all fun consonant =>
      e.2.toList.head? = some consonant) = true := by
    decide
  intro e he c hc consonant hconsonant
  have hentry := List.all_eq_true.1 hall e he
  simpa [show e.1.toList.head? = some c from hc, hconsonant] using hentry

theorem geminated_consonant : ∀ e ∈ geminated, e.2 ∈ consonants ∧ e.2 ≠ 'n' := by decide

theorem of_gemination? {c consonant : Char} (h : gemination? c = some consonant) :
    consonant ∈ consonants ∧ consonant ≠ 'n' := by
  unfold gemination? at h
  obtain ⟨e, he, rfl⟩ := Option.map_eq_some_iff.1 h
  exact geminated_consonant e (List.mem_of_find?_eq_some he)

end KanaTutor.Syllabary

namespace KanaTutor.Romanizer

open Syllabary

variable {r : Romanizer}

/-! ## Fronts of texts -/

/-- A text begins with an entry, which has its own romaji; or with a moraic nasal or a small tsu, which
have one key and perhaps an apostrophe. -/
theorem wordsAfter_cases {c : Char} (hc : c ∈ characters) (t : Text) :
    (∃ e ∈ entries, e.1.toList ≠ ['ん'] ∧ e.1.toList.head? = some c ∧ ∃ rest, c :: t = e.1.toList ++ rest ∧
        r.wordsAfter none (c :: t) = e.2.toList ++ r.wordsAfter none rest) ∨
      (c = 'ん' ∧ r.wordsAfter none (c :: t) =
        (if t.head?.any r.needsApostrophe then ['n', '\''] else ['n']) ++ r.wordsAfter none t) ∨
      (c = 'っ' ∧ ∃ consonant, t.head?.bind gemination? = some consonant ∧
        r.wordsAfter none (c :: t) = consonant :: r.wordsAfter none t) := by
  rcases hdigraph : digraph? (c :: t) with _ | romaji
  · have hnone : ∀ d ∈ t.head?, isDigraph c d = false := by
      intro d hd
      cases t with
      | nil => cases hd
      | cons d t => cases hd; simpa [isDigraph, digraph?] using hdigraph
    rw [wordsAfter_cons hnone]
    obtain ⟨romaji, hromaji⟩ := romaji?_character hc
    obtain ⟨e, he, hkana, rfl⟩ := mem_of_romaji? hromaji
    by_cases hn : c = 'ん'
    · exact .inr (.inl ⟨hn, by rw [soloWord, if_pos hn]⟩)
    · have hentry : e.1.toList ≠ ['ん'] := by simpa [hkana] using hn
      by_cases hs : c = 'っ'
      · rw [soloWord, if_neg hn, if_pos hs]
        rcases hdouble : t.head?.bind gemination? with _ | consonant
        · refine .inl ⟨e, he, hentry, by rw [hkana]; rfl, t, by rw [hkana]; rfl, ?_⟩
          have htsu : romaji? ['っ'] = some ['x', 't', 'u'] := by decide
          rw [hs, htsu] at hromaji
          rw [← Option.some.inj hromaji]
        · exact .inr (.inr ⟨hs, consonant, rfl, rfl⟩)
      · refine .inl ⟨e, he, hentry, by rw [hkana]; rfl, t, by rw [hkana]; rfl, ?_⟩
        rw [soloWord, if_neg hn, if_neg hs, hromaji]
  · cases t with
    | nil => cases hdigraph
    | cons d rest =>
      obtain ⟨e, he, hkana, rfl⟩ := mem_of_romaji? hdigraph
      exact .inl ⟨e, he, by simp [hkana], by rw [hkana]; rfl, rest, by rw [hkana]; rfl,
        wordsAfter_digraph hdigraph⟩

theorem wordsAfter_geminated {c consonant : Char} (hc : c ∈ characters) (h : gemination? c = some consonant)
    (t : Text) : ∃ keys, r.wordsAfter none (c :: t) = consonant :: keys := by
  rcases wordsAfter_cases (r := r) hc t with ⟨e, he, -, hhead, rest, -, hkeys⟩ | ⟨rfl, -⟩ | ⟨rfl, -⟩
  · obtain ⟨keys, hromaji⟩ := List.head?_eq_some_iff.1 (entries_geminated e he c hhead consonant h)
    exact ⟨keys ++ r.wordsAfter none rest, by rw [hkeys, hromaji]; rfl⟩
  · have hnone : gemination? 'ん' = none := by decide
    rw [hnone] at h
    cases h
  · have hnone : gemination? 'っ' = none := by decide
    rw [hnone] at h
    cases h

/-! ## Reading back -/

theorem front?_entry {e : String × String} (he : e ∈ entries) (hn : e.1.toList ≠ ['ん']) (keys : Text) :
    front? (e.2.toList ++ keys) = some (e.1.toList, keys) := by
  rw [front?, syllable_append (entries_isSyllable e he hn), kana?_entry he]
  simp

theorem front?_double {consonant : Char} (h : consonant ∈ consonants) (hn : consonant ≠ 'n') (keys : Text) :
    front? (consonant :: consonant :: keys) = some (['っ'], consonant :: keys) := by
  rw [front?, syllable_cons h, syllable_cons h, kana?_double]
  simp [opener?, hn]

theorem front?_apostrophe (keys : Text) : front? ('n' :: '\'' :: keys) = some (['ん'], keys) := by
  have hsyllable : syllable ('n' :: '\'' :: keys) = ['n', '\''] := by
    rw [syllable_cons (by decide)]
    rfl
  have hnone : kana? ['n', '\''] = none := by decide
  rw [front?, hsyllable, hnone]
  rfl

/-- A nasal is read off its one key if the kana after it takes no apostrophe. -/
theorem front?_nasal {t : Text} (ht : ∀ c ∈ t, c ∈ characters) (h : ∀ c ∈ t.head?, c ∉ vowelsAndYa) :
    front? ('n' :: r.wordsAfter none t) = some (['ん'], r.wordsAfter none t) := by
  have hn : 'n' ∈ consonants := by decide
  -- the `n` is none of an entry, and no apostrophe follows it
  have hopener : ∀ keys : Text, kana? ('n' :: syllable keys) = none → keys.head? ≠ some '\'' →
      front? ('n' :: keys) = some (['ん'], keys) := by
    intro keys hnone hapostrophe
    rw [front?, syllable_cons hn, hnone]
    simp [opener?, hapostrophe]
  cases t with
  | nil =>
    have hlast : front? ['n'] = some (['ん'], []) := by decide
    exact hlast
  | cons c t =>
    obtain ⟨hc, hrest⟩ := List.forall_mem_cons.1 ht
    rcases wordsAfter_cases (r := r) hc t with ⟨e, he, hentry, hhead, rest, -, hkeys⟩ | ⟨-, hkeys⟩ |
      ⟨-, consonant, hdouble, hkeys⟩
    · have hsyllable := entries_isSyllable e he hentry
      rw [hkeys]
      refine hopener _ ?_ (hsyllable.head_ne _)
      rw [syllable_append hsyllable]
      refine kana?_nasal he ?_ ?_
      · rw [hhead]
        exact h
      · obtain ⟨front, last, hromaji, -⟩ := hsyllable
        simp [hromaji]
    · rw [hkeys]
      refine hopener _ ?_ ?_
      · split <;> rw [List.cons_append, syllable_cons hn, kana?_double]
      · split <;> simp
    · obtain ⟨d, hd, hgeminated⟩ := Option.bind_eq_some_iff.1 hdouble
      obtain ⟨hconsonant, -⟩ := of_gemination? hgeminated
      obtain ⟨rest, rfl⟩ := List.head?_eq_some_iff.1 hd
      obtain ⟨keys, hgem⟩ := wordsAfter_geminated (r := r) (hrest d (by simp)) hgeminated rest
      rw [hkeys, hgem]
      refine hopener _ ?_ ?_
      · rw [syllable_cons hconsonant, syllable_cons hconsonant, kana?_nasal_double]
      · have hne : consonant ≠ '\'' := by
          intro heq
          rw [heq] at hconsonant
          exact absurd hconsonant (by decide)
        simpa using hne

/-- The kana at the front of the keys of a text is what the text begins with, and the keys after it are those
of the rest of the text. -/
theorem front?_wordsAfter {c : Char} {t : Text} (h : ∀ d ∈ c :: t, d ∈ characters) :
    ∃ kana rest, kana ≠ [] ∧ c :: t = kana ++ rest ∧
      front? (r.wordsAfter none (c :: t)) = some (kana, r.wordsAfter none rest) := by
  obtain ⟨hc, hrest⟩ := List.forall_mem_cons.1 h
  rcases wordsAfter_cases (r := r) hc t with ⟨e, he, hentry, hhead, rest, htext, hkeys⟩ | ⟨rfl, hkeys⟩ |
    ⟨rfl, consonant, hdouble, hkeys⟩
  · refine ⟨e.1.toList, rest, ?_, htext, ?_⟩
    · intro hnil
      rw [hnil] at hhead
      cases hhead
    · rw [hkeys, front?_entry he hentry]
  · refine ⟨['ん'], t, by simp, rfl, ?_⟩
    rw [hkeys]
    split
    · exact front?_apostrophe _
    · rename_i hnext
      refine front?_nasal hrest ?_
      intro d hd hmem
      refine hnext ((Option.any_eq_true ..).2 ⟨d, hd, ?_⟩)
      rw [needsApostrophe, show "あいうえおやゆよ".toList.contains d = true from List.contains_iff_mem.2 hmem]
      rfl
  · refine ⟨['っ'], t, by simp, rfl, ?_⟩
    obtain ⟨d, hd, hgeminated⟩ := Option.bind_eq_some_iff.1 hdouble
    obtain ⟨hconsonant, hn⟩ := of_gemination? hgeminated
    obtain ⟨rest, rfl⟩ := List.head?_eq_some_iff.1 hd
    obtain ⟨keys, hgem⟩ := wordsAfter_geminated (r := r) (hrest d (by simp)) hgeminated rest
    rw [hkeys, hgem, front?_double hconsonant hn]

/-- The keys of a text of the syllabary are read back as the text. -/
theorem decode_keys {t : Text} (h : ∀ c ∈ t, c ∈ characters) : decode (r.keys t) = t := by
  rw [keys_eq_wordsAfter]
  induction hlength : t.length using Nat.strongRecOn generalizing t with
  | ind n ih =>
    cases t with
    | nil => exact decode_nil
    | cons c t =>
      obtain ⟨kana, rest, hkana, htext, hfront⟩ := front?_wordsAfter (r := r) h
      rw [htext] at h hlength
      have hshorter : rest.length < n := by
        have := List.length_pos_iff.2 hkana
        rw [List.length_append] at hlength
        omega
      rw [decode_of_front? hfront, htext]
      rw [ih rest.length hshorter (fun d hd => h d (List.mem_append_right _ hd)) rfl]

/-- Two texts of the syllabary have the same keys only if they are the same. -/
theorem hyphenize_romanize_inj (r : Romanizer) {s t : Text} (hs : ∀ c ∈ s, c ∈ characters)
    (ht : ∀ c ∈ t, c ∈ characters) : hyphenize (r.romanize s) = hyphenize (r.romanize t) ↔ s = t := by
  constructor
  · intro hkeys
    calc s = decode (r.keys s) := (decode_keys hs).symm
      _ = decode (r.keys t) := congrArg decode hkeys
      _ = t := decode_keys ht
  · intro heq
    rw [heq]

/-- A nasal before the na row and two nasals before a vowel are told apart although neither takes an apostrophe
at its first `n`. -/
theorem hyphenize_romanize_inj_nasal :
    (∀ c ∈ "かんな".toList, c ∈ characters) ∧ (∀ c ∈ "かんんあ".toList, c ∈ characters) ∧
      hyphenize (({ x4063 := false } : Romanizer).romanize "かんな".toList) ≠
        hyphenize (({ x4063 := false } : Romanizer).romanize "かんんあ".toList) := by
  have hall : ("かんな".toList ++ "かんんあ".toList).all characters.contains = true := by decide
  have hmem : ∀ c ∈ "かんな".toList ++ "かんんあ".toList, c ∈ characters := fun c hc =>
    List.contains_iff_mem.1 (List.all_eq_true.1 hall c hc)
  have hs : ∀ c ∈ "かんな".toList, c ∈ characters := fun c hc => hmem c (List.mem_append_left _ hc)
  have ht : ∀ c ∈ "かんんあ".toList, c ∈ characters := fun c hc => hmem c (List.mem_append_right _ hc)
  refine ⟨hs, ht, ?_⟩
  intro hkeys
  have heq := (hyphenize_romanize_inj { x4063 := false } hs ht).1 hkeys
  exact absurd heq (by decide)

end KanaTutor.Romanizer
