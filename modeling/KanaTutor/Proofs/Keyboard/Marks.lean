/-
Kana and marks. On a kana layout the keys of a kana are one key, or two of which the second is a mark. As no kana of a
reading is a mark itself, the keys can be read back from the front: a key with a mark after it is the kana that the two
make, and any other key is its own kana.

Two pairs of keys are made by two kana each: a small tsu or a small u without a key of its own is typed like the voiced
tsu or u. So what is read back is the reading with the voiced kana for these two, and it is the reading itself where
both have keys.
-/
import KanaTutor.Proofs.Keyboard.Hints
import KanaTutor.Proofs.Keyboard.SmallKana

namespace KanaTutor

/-- What holds of the characters of a text is decided along the text, not for all characters there are. -/
instance decidableForallMem {P : Char → Prop} [DecidablePred P] (t : List Char) : Decidable (∀ c ∈ t, P c) :=
  List.decidableBAll P t

/-! ## Kana with marks -/

/-- The kana that can be typed with a mark, each with the kana that is typed before the mark, and the mark. -/
def marked : List (Char × Char × Char) :=
  [('が', 'か', '゛'), ('ぎ', 'き', '゛'), ('ぐ', 'く', '゛'), ('げ', 'け', '゛'), ('ご', 'こ', '゛'),
    ('ざ', 'さ', '゛'), ('じ', 'し', '゛'), ('ず', 'す', '゛'), ('ぜ', 'せ', '゛'), ('ぞ', 'そ', '゛'),
    ('だ', 'た', '゛'), ('ぢ', 'ち', '゛'), ('づ', 'つ', '゛'), ('で', 'て', '゛'), ('ど', 'と', '゛'),
    ('ば', 'は', '゛'), ('び', 'ひ', '゛'), ('ぶ', 'ふ', '゛'), ('べ', 'へ', '゛'), ('ぼ', 'ほ', '゛'),
    ('ゔ', 'う', '゛'), ('ぱ', 'は', '゜'), ('ぴ', 'ひ', '゜'), ('ぷ', 'ふ', '゜'), ('ぺ', 'へ', '゜'),
    ('ぽ', 'ほ', '゜'), ('ぁ', 'あ', '゛'), ('ぃ', 'い', '゛'), ('ぅ', 'う', '゛'), ('ぇ', 'え', '゛'),
    ('ぉ', 'お', '゛'), ('ゃ', 'や', '゛'), ('ゅ', 'ゆ', '゛'), ('ょ', 'よ', '゛'), ('っ', 'つ', '゛')]

/-- The character is one of the two marks. -/
def isMark (c : Char) : Bool := c = Legend.dakuten || c = Legend.handakuten

theorem mem_of_counterpart? {c d : Char} {kana plain : String} (h : counterpart? c kana plain = some d) :
    (c, d) ∈ kana.toList.zip plain.toList := by
  obtain ⟨⟨_, _⟩, hfind, rfl⟩ := Option.map_eq_some_iff.1 h
  obtain rfl : _ = c := by simpa using List.find?_some hfind
  exact List.mem_of_find?_eq_some hfind

/-- What is typed as a kana and a mark is one of the kana that can be. -/
theorem mem_marked {small : Text} {c base mark : Char} (h : decompose? small c = some (base, mark)) :
    (c, base, mark) ∈ marked := by
  unfold decompose? at h
  split at h
  · rename_i hvoiced
    cases h
    have hall : ∀ p ∈ "がぎぐげござじずぜぞだぢづでどばびぶべぼゔ".toList.zip
        "かきくけこさしすせそたちつてとはひふへほう".toList, (p.1, p.2, Legend.dakuten) ∈ marked := by decide
    exact hall _ (mem_of_counterpart? hvoiced)
  · split at h
    · rename_i hhalf
      cases h
      have hall : ∀ p ∈ "ぱぴぷぺぽ".toList.zip "はひふへほ".toList, (p.1, p.2, Legend.handakuten) ∈ marked := by
        decide
      exact hall _ (mem_of_counterpart? hhalf)
    · split at h
      · obtain ⟨full, hsmall, heq⟩ := Option.map_eq_some_iff.1 h
        cases heq
        have hall : ∀ p ∈ "ぁぃぅぇぉゃゅょっ".toList.zip "あいうえおやゆよつ".toList,
            (p.1, p.2, Legend.dakuten) ∈ marked := by
          decide
        exact hall _ (mem_of_counterpart? hsmall)
      · cases h

/-- A character that cannot be typed with a mark is typed as it is. -/
theorem decompose?_of_not_mem {c : Char} (h : c ∉ marked.map (·.1)) (small : Text) : decompose? small c = none := by
  rw [Option.eq_none_iff_forall_ne_some]
  rintro ⟨base, mark⟩ hsome
  exact h (List.mem_map_of_mem (mem_marked hsome))

/-- A small kana is typed with a mark only if it has no key. -/
theorem mem_of_decompose? {small : Text} {c : Char} (hc : c ∈ smallKana) (h : decompose? small c ≠ none) :
    c ∈ small := by
  obtain ⟨full, hfull⟩ := exists_fullSize hc
  rw [decompose?_small hfull] at h
  exact Decidable.of_not_not fun hmem => h (if_neg hmem)

/-! ## Reading keys back -/

/-- The kana that a key and the mark after it make; a voiced one, if a small one has the same keys. -/
def composed? (base mark : Char) : Option Char := (marked.find? fun (_, b, m) => b = base ∧ m = mark).map (·.1)

/-- What a key types by itself. -/
def typedBy (key : Char) : Char := if key = returnSymbol then '\n' else key

/-- Reads a text off its keys. -/
def readKeys : Text → Text
  | [] => []
  | [key] => [typedBy key]
  | key :: next :: rest =>
    match composed? key next with
    | some kana => kana :: readKeys rest
    | none => typedBy key :: readKeys (next :: rest)

/-- The voiced kana with the same keys, for a small tsu and a small u without a key. -/
def voicedFor (small : Text) (c : Char) : Char :=
  if c = 'っ' ∧ 'っ' ∈ small then 'づ' else if c = 'ぅ' ∧ 'ぅ' ∈ small then 'ゔ' else c

/-- Among the kana with marks only these two have the keys of another one. -/
theorem marked_composed : ∀ p ∈ marked, composed? p.2.1 p.2.2 = some (voicedFor smallKana p.1) := by decide

theorem marked_keys : ∀ p ∈ marked, isMark p.2.1 = false ∧ isMark p.2.2 = true := by decide

theorem composed?_of_not_mark {key next : Char} (h : isMark next = false) : composed? key next = none := by
  rw [Option.eq_none_iff_forall_ne_some]
  intro kana hsome
  obtain ⟨⟨_, base, mark⟩, hfind, rfl⟩ := Option.map_eq_some_iff.1 hsome
  obtain ⟨rfl, rfl⟩ : base = key ∧ mark = next := by simpa using List.find?_some hfind
  have hmark := (marked_keys _ (List.mem_of_find?_eq_some hfind)).2
  rw [h] at hmark
  cases hmark

theorem voicedFor_eq {small : Text} {c : Char} (h : c ∈ smallKana → c ∈ small) :
    voicedFor small c = voicedFor smallKana c := by
  have hiff : ∀ d ∈ smallKana, (c = d ∧ d ∈ small) ↔ (c = d ∧ d ∈ smallKana) := by
    rintro d hd
    constructor
    · rintro ⟨rfl, -⟩
      exact ⟨rfl, hd⟩
    · rintro ⟨rfl, -⟩
      exact ⟨rfl, h hd⟩
  rw [voicedFor, voicedFor, if_congr (hiff 'っ' (by decide)) rfl rfl, if_congr (hiff 'ぅ' (by decide)) rfl rfl]

theorem voicedFor_of_decompose? {small : Text} {c base mark : Char} (h : decompose? small c = some (base, mark)) :
    composed? base mark = some (voicedFor small c) := by
  rw [voicedFor_eq fun hc => mem_of_decompose? hc (by simp [h])]
  exact marked_composed _ (mem_marked h)

/-- A small tsu or u without a key is typed with a mark. -/
theorem voicedFor_of_none {small : Text} {c : Char} (h : decompose? small c = none) : voicedFor small c = c := by
  have hkey : ∀ full, (c, full) ∈ fullSizes → c ∉ small := by
    intro full hfull hmem
    rw [decompose?_small hfull, if_pos hmem] at h
    cases h
  rw [voicedFor, if_neg, if_neg]
  · rintro ⟨rfl, hmem⟩
    exact hkey 'う' (by decide) hmem
  · rintro ⟨rfl, hmem⟩
    exact hkey 'つ' (by decide) hmem

namespace Typing

variable {typing : Typing}

/-- A character is typed as it is, if all that are typed with a mark have something that it has not. -/
theorem kanaKeys_of_unmarked (typing : Typing) {P : Char → Prop} (hall : ∀ p ∈ marked, P p.1) {c : Char} (hc : ¬P c)
    (hbreak : c ≠ '\n') : typing.kanaKeys c = [c] := by
  have hmarked : c ∉ marked.map (·.1) := by
    intro hmem
    obtain ⟨p, hp, rfl⟩ := List.mem_map.1 hmem
    exact hc (hall p hp)
  rw [kanaKeys, if_neg hbreak, decompose?_of_not_mem hmarked]

/-- One key, or two with a mark. -/
theorem kanaKeys_cases (typing : Typing) {c : Char} (hc : isMark c = false) (hreturn : c ≠ returnSymbol) :
    (∃ base mark, typing.kanaKeys c = [base, mark] ∧ isMark base = false ∧
        composed? base mark = some (voicedFor typing.layout.smallKana c)) ∨
      ∃ key, typing.kanaKeys c = [key] ∧ isMark key = false ∧ typedBy key = voicedFor typing.layout.smallKana c := by
  unfold kanaKeys
  split
  · rename_i hbreak
    subst hbreak
    exact .inr ⟨returnSymbol, rfl, by decide, by simp [typedBy, voicedFor]⟩
  · cases h : decompose? typing.layout.smallKana c with
    | none =>
      refine .inr ⟨c, rfl, hc, ?_⟩
      rw [typedBy, if_neg hreturn, voicedFor_of_none h]
    | some keys =>
      obtain ⟨base, mark⟩ := keys
      exact .inl ⟨base, mark, rfl, (marked_keys _ (mem_marked h)).1, voicedFor_of_decompose? h⟩

theorem head_kanaKeys {c : Char} (hc : isMark c = false) (hreturn : c ≠ returnSymbol) (rest : Text) :
    ∀ key ∈ (typing.kanaKeys c ++ rest).head?, isMark key = false := by
  rintro key hkey
  rcases kanaKeys_cases typing hc hreturn with ⟨base, mark, hkeys, hbase, -⟩ | ⟨single, hkeys, hsingle, -⟩
  · rw [hkeys] at hkey
    cases hkey
    exact hbase
  · rw [hkeys] at hkey
    cases hkey
    exact hsingle

theorem readKeys_cons {key : Char} {rest : Text} (h : ∀ next ∈ rest.head?, isMark next = false) :
    readKeys (key :: rest) = typedBy key :: readKeys rest := by
  cases rest with
  | nil => rfl
  | cons next rest => rw [readKeys, composed?_of_not_mark (h next rfl)]

/-- The keys of a text without marks are read back with the voiced kana for the small ones that share their keys. The
induction is along the text: what follows the keys of a kana begins with no mark, so no key is taken for its mark. -/
theorem readKeys_flatMap {t : Text} (h : ∀ c ∈ t, isMark c = false ∧ c ≠ returnSymbol) :
    readKeys (t.flatMap typing.kanaKeys) = t.map (voicedFor typing.layout.smallKana) := by
  induction t with
  | nil => rfl
  | cons c t ih =>
    obtain ⟨hc, ht⟩ := List.forall_mem_cons.1 h
    have hrest : ∀ next ∈ (t.flatMap typing.kanaKeys).head?, isMark next = false := by
      cases t with
      | nil => simp
      | cons d t =>
        obtain ⟨hd, -⟩ := List.forall_mem_cons.1 ht
        exact head_kanaKeys hd.1 hd.2 _
    rw [List.flatMap_cons, List.map_cons, ← ih ht]
    rcases kanaKeys_cases typing hc.1 hc.2 with ⟨base, mark, hkeys, -, hcomposed⟩ | ⟨key, hkeys, -, htyped⟩
    · rw [hkeys, List.cons_append, List.cons_append, List.nil_append, readKeys, hcomposed]
    · rw [hkeys, List.singleton_append, readKeys_cons hrest, htyped]

/-- The voiced kana has the keys of the small one. -/
theorem kanaKeys_voicedFor (typing : Typing) (c : Char) :
    typing.kanaKeys (voicedFor typing.layout.smallKana c) = typing.kanaKeys c := by
  unfold voicedFor
  split
  · rename_i htsu
    obtain ⟨rfl, hsmall⟩ := htsu
    have hkeys : ('っ', 'つ') ∈ fullSizes := by decide
    rw [kanaKeys_small hkeys, if_pos hsmall]
    rfl
  · split
    · rename_i hu
      obtain ⟨rfl, hsmall⟩ := hu
      have hkeys : ('ぅ', 'う') ∈ fullSizes := by decide
      rw [kanaKeys_small hkeys, if_pos hsmall]
      rfl
    · rfl

theorem flatMap_kanaKeys_eq_iff {s t : Text} (hs : ∀ c ∈ s, isMark c = false ∧ c ≠ returnSymbol)
    (ht : ∀ c ∈ t, isMark c = false ∧ c ≠ returnSymbol) :
    s.flatMap typing.kanaKeys = t.flatMap typing.kanaKeys ↔
      s.map (voicedFor typing.layout.smallKana) = t.map (voicedFor typing.layout.smallKana) := by
  have hvoiced : ∀ t : Text,
      (t.map (voicedFor typing.layout.smallKana)).flatMap typing.kanaKeys = t.flatMap typing.kanaKeys := by
    intro t
    rw [List.flatMap_map]
    simp only [kanaKeys_voicedFor]
  constructor
  · intro h
    rw [← readKeys_flatMap hs, ← readKeys_flatMap ht, h]
  · intro h
    rw [← hvoiced s, ← hvoiced t, h]

theorem voicedFor_eq_self {small : Text} (htsu : 'っ' ∉ small) (hu : 'ぅ' ∉ small) (c : Char) :
    voicedFor small c = c := by
  simp [voicedFor, htsu, hu]

/-- What a keyboard carries is no small kana without a key. -/
theorem not_mem_smallKana {b : Board} {d : Description} {c : Char} (hkana : (Layout.ofDescription b d).kind = .kana)
    (hc : (Layout.ofDescription b d).board.Carries c) : c ∉ (Layout.ofDescription b d).smallKana := by
  cases hd : d.kind with
  | romaji =>
    rw [Layout.ofDescription, hd] at hkana
    cases hkana
  | kana =>
    rw [Layout.ofDescription, hd] at hc ⊢
    dsimp only at hc ⊢
    rw [Layout.smallKana_ofKana, List.mem_filter, decide_eq_true_eq]
    exact fun h => h.2 hc

/-- On a kana layout two readings without marks are typed with the same keys exactly if they are the same once a small
tsu and a small u, where they have no keys of their own, are written as the voiced tsu and u. Where both have keys, as
on a keyboard that carries them, the keys tell the reading. -/
theorem kana_keys_eq_iff (typing : Typing) (hkana : typing.layout.kind = .kana) {s t : Text}
    (hs : ∀ c ∈ s, c ∉ [Legend.dakuten, Legend.handakuten, returnSymbol])
    (ht : ∀ c ∈ t, c ∉ [Legend.dakuten, Legend.handakuten, returnSymbol]) :
    let keys := fun t => (typing.hints t).flatMap Hint.sequence
    let small := typing.layout.smallKana
    (keys s = keys t ↔ s.map (voicedFor small) = t.map (voicedFor small)) ∧
      ('っ' ∉ small → 'ぅ' ∉ small → (keys s = keys t ↔ s = t)) ∧
      ∀ (b : Board) (d : Description), typing.layout = .ofDescription b d →
        typing.layout.board.Carries 'っ' → typing.layout.board.Carries 'ぅ' → (keys s = keys t ↔ s = t) := by
  intro keys small
  have hclear : ∀ {t : Text}, (∀ c ∈ t, c ∉ [Legend.dakuten, Legend.handakuten, returnSymbol]) →
      ∀ c ∈ t, isMark c = false ∧ c ≠ returnSymbol := by
    intro t h c hc
    simpa [isMark, and_assoc] using h c hc
  have hiff : keys s = keys t ↔ s.map (voicedFor small) = t.map (voicedFor small) := by
    show (typing.hints s).flatMap Hint.sequence = (typing.hints t).flatMap Hint.sequence ↔ _
    rw [sequence_hints, sequence_hints, keys_kana hkana, keys_kana hkana]
    exact flatMap_kanaKeys_eq_iff (hclear hs) (hclear ht)
  have hown : 'っ' ∉ small → 'ぅ' ∉ small → (keys s = keys t ↔ s = t) := by
    intro htsu hu
    rw [hiff, funext (voicedFor_eq_self htsu hu), List.map_id', List.map_id']
  refine ⟨hiff, hown, fun b d hlayout htsu hu => hown ?_ ?_⟩
  · rw [hlayout] at hkana htsu
    simpa only [small, hlayout] using not_mem_smallKana hkana htsu
  · rw [hlayout] at hkana hu
    simpa only [small, hlayout] using not_mem_smallKana hkana hu

theorem kana_keys_eq_iff_tsu :
    let b : Board := ⟨"109".toList, [[⟨100, ['z'], ['Z']⟩, ⟨100, ['4'], ['$']⟩]]⟩
    let d : Description := { kind := .kana, normal := [(['z'], ['っ'])], shift := [(['$'], ['ぅ'])] }
    let without : Typing := { layout := ⟨.kana, b, ['っ', 'ゃ'], []⟩ }
    let own : Typing := { layout := .ofDescription b d }
    let keys := fun (typing : Typing) t => (typing.hints t).flatMap Hint.sequence
    without.layout.kind = .kana ∧ own.layout.kind = .kana ∧
      (∀ t ∈ ["がっきゅぅ", "がづきゅぅ", "がづきゅゔ"], ∀ c ∈ t.toList,
        c ∉ [Legend.dakuten, Legend.handakuten, returnSymbol]) ∧
      keys without "がっきゅぅ".toList = keys without "がづきゅぅ".toList ∧
      keys without "がっきゅぅ".toList ≠ keys without "がづきゅゔ".toList ∧
      own.layout.board.Carries 'っ' ∧ own.layout.board.Carries 'ぅ' ∧
      keys own "がっきゅぅ".toList ≠ keys own "がづきゅぅ".toList := by
  intro b d without own keys
  have hclear : ∀ t ∈ ["がっきゅぅ", "がづきゅぅ", "がづきゅゔ"], ∀ c ∈ t.toList,
      c ∉ [Legend.dakuten, Legend.handakuten, returnSymbol] := by decide
  have htsu : own.layout.board.Carries 'っ' := by decide
  have hu : own.layout.board.Carries 'ぅ' := by decide
  have htwo := hclear "がっきゅぅ" (by simp)
  obtain ⟨hsame, -, -⟩ := kana_keys_eq_iff without rfl htwo (hclear "がづきゅぅ" (by simp))
  obtain ⟨hother, -, -⟩ := kana_keys_eq_iff without rfl htwo (hclear "がづきゅゔ" (by simp))
  obtain ⟨-, -, hown⟩ := kana_keys_eq_iff own rfl htwo (hclear "がづきゅぅ" (by simp))
  exact ⟨rfl, rfl, hclear, hsame.2 (by decide), mt hother.1 (by decide), htsu, hu,
    mt (hown b d rfl htsu hu).1 (by decide)⟩

end Typing

end KanaTutor
