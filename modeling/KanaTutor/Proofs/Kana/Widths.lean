/-
Characters of two widths. A full-width form and its half-width counterpart are a pair, and no character is in two pairs;
so either width can be told from the other.

The romanizer takes a half-width form at the very end, for a character that the syllabary does not know. What it looks
ahead for before that are characters of the syllabary, and none of these has two widths; so the morae of a text are
those of its half-width form, one for one, and those of its full-width form as well.
-/
import KanaTutor.Proofs.Kana.LocalKeys
import KanaTutor.Proofs.Keyboard.Marks

namespace KanaTutor

namespace Width

/-! ## Pairs -/

/-- The half-width forms with their full-width counterparts. -/
def pairs : List (Char × Char) :=
  (' ', '\u3000') :: ('¥', '￥') ::
    (List.range 94).map fun i => (Char.ofNat ('!'.toNat + i), Char.ofNat ('！'.toNat + i))

theorem toNat_le {c d : Char} (h : c ≤ d) : c.toNat ≤ d.toNat := UInt32.le_iff_toNat_le.1 (Char.le_def.1 h)

theorem mem_pairs {i : Nat} (h : i < 94) : (Char.ofNat (0x21 + i), Char.ofNat (0xFF01 + i)) ∈ pairs :=
  List.mem_cons_of_mem _ (List.mem_cons_of_mem _ (List.mem_map.2 ⟨i, List.mem_range.2 h, rfl⟩))

theorem mem_pairs_of_half? {c d : Char} (h : half? c = some d) : (d, c) ∈ pairs := by
  unfold half? at h
  split at h
  · rename_i hc
    have hlo : 0xFF01 ≤ c.toNat := toNat_le hc.1
    have hhi : c.toNat ≤ 0xFF5E := toNat_le hc.2
    rw [Option.some.injEq] at h
    subst h
    have hmem := mem_pairs (show c.toNat - 0xFF01 < 94 by omega)
    rwa [show 0x21 + (c.toNat - 0xFF01) = c.toNat - 0xFEE0 by omega, Nat.add_sub_cancel' hlo,
      Char.ofNat_toNat] at hmem
  · split at h
    · rename_i hc
      cases h
      subst hc
      decide
    · split at h
      · rename_i hc
        cases h
        subst hc
        decide
      · cases h

theorem mem_pairs_of_full? {c d : Char} (h : full? c = some d) : (c, d) ∈ pairs := by
  unfold full? at h
  split at h
  · rename_i hc
    have hlo : 0x21 ≤ c.toNat := toNat_le hc.1
    have hhi : c.toNat ≤ 0x7E := toNat_le hc.2
    rw [Option.some.injEq] at h
    subst h
    have hmem := mem_pairs (show c.toNat - 0x21 < 94 by omega)
    rwa [Nat.add_sub_cancel' hlo, show 0xFF01 + (c.toNat - 0x21) = c.toNat + 0xFEE0 by omega,
      Char.ofNat_toNat] at hmem
  · split at h
    · rename_i hc
      cases h
      subst hc
      decide
    · split at h
      · rename_i hc
        cases h
        subst hc
        decide
      · cases h

theorem pairs_widths : ∀ p ∈ pairs,
    half? p.1 = none ∧ half? p.2 = some p.1 ∧ full? p.1 = some p.2 ∧ full? p.2 = none := by
  decide +kernel

/-- A character has the same half-width form in either width. -/
theorem half_full (c : Char) : half (full c) = half c := by
  cases h : full? c with
  | none => rw [full, h, Option.getD_none]
  | some d =>
    obtain ⟨hc, hd, -, -⟩ := pairs_widths _ (mem_pairs_of_full? h)
    dsimp only at hc hd
    rw [full, h, Option.getD_some, half, hd, half, hc, Option.getD_some, Option.getD_none]

theorem full_half (c : Char) : full (half c) = full c := by
  cases h : half? c with
  | none => rw [half, h, Option.getD_none]
  | some d =>
    obtain ⟨-, -, hd, hc⟩ := pairs_widths _ (mem_pairs_of_half? h)
    dsimp only at hc hd
    rw [half, h, Option.getD_some, full, hd, full, hc, Option.getD_some, Option.getD_none]

theorem half_cases (c : Char) : half c = c ∨ (half c, c) ∈ pairs := by
  cases h : half? c with
  | none => exact .inl (by rw [half, h, Option.getD_none])
  | some d => exact .inr (by rw [half, h, Option.getD_some]; exact mem_pairs_of_half? h)

theorem half_half (c : Char) : half (half c) = half c := by
  rcases half_cases c with h | h
  · rw [h, h]
  · rw [half, (pairs_widths _ h).1, Option.getD_none]

end Width

namespace Text

theorem hankaku_zenkaku (t : Text) : t.zenkaku.hankaku = t.hankaku := by
  simp only [hankaku, zenkaku, List.map_map]
  exact List.map_congr_left fun c _ => Width.half_full c

theorem zenkaku_hankaku (t : Text) : t.hankaku.zenkaku = t.zenkaku := by
  simp only [hankaku, zenkaku, List.map_map]
  exact List.map_congr_left fun c _ => Width.full_half c

end Text

/-! ## The syllabary -/

/-- The character is among Japanese punctuation and kana. -/
def IsKana (c : Char) : Prop := 0x3001 ≤ c.toNat ∧ c.toNat ≤ 0x30FF

instance : DecidablePred IsKana := fun c => inferInstanceAs (Decidable (0x3001 ≤ c.toNat ∧ c.toNat ≤ 0x30FF))

/-- No kana and no line break has two widths. -/
theorem pairs_foreign : ∀ p ∈ Width.pairs, ∀ c ∈ [p.1, p.2], ¬IsKana c ∧ c ≠ '\n' := by decide +kernel

theorem marked_kana : ∀ p ∈ marked, IsKana p.1 := by decide

/-- A character has one width, or it is foreign to the syllabary in both. -/
theorem foreign_of_half (c : Char) : Width.half c = c ∨ ¬IsKana c ∧ ¬IsKana (Width.half c) := by
  rcases Width.half_cases c with h | h
  · exact .inl h
  · exact .inr ⟨(pairs_foreign _ h _ (by simp)).1, (pairs_foreign _ h _ (by simp)).1⟩

theorem half_eq_iff {c d : Char} (hd : IsKana d) : Width.half c = d ↔ c = d := by
  rcases foreign_of_half c with h | ⟨hc, hhalf⟩
  · rw [h]
  · exact ⟨fun h => absurd (h ▸ hd) hhalf, fun h => absurd (h ▸ hd) hc⟩

theorem hankaku_cons (c : Char) (t : Text) : Text.hankaku (c :: t) = Width.half c :: Text.hankaku t := rfl

theorem hankaku_kana {c : Char} (hc : IsKana c) (t : Text) : Text.hankaku (c :: t) = c :: Text.hankaku t := by
  rw [hankaku_cons, (half_eq_iff hc).2 rfl]

theorem half_eq_break {c : Char} : Width.half c = '\n' ↔ c = '\n' := by
  rcases Width.half_cases c with h | h
  · rw [h]
  · obtain ⟨-, hhalf⟩ := pairs_foreign _ h (Width.half c) (by simp)
    obtain ⟨-, hfull⟩ := pairs_foreign _ h c (by simp)
    exact ⟨fun heq => absurd heq hhalf, fun heq => absurd heq hfull⟩

namespace Syllabary

theorem entries_kana : ∀ e ∈ entries, ∀ c ∈ e.1.toList, IsKana c := by decide +kernel

theorem geminated_kana : ∀ e ∈ geminated, ∀ c ∈ e.1.toList, IsKana c := by decide

theorem romaji?_foreign {kana : Text} {c : Char} (hmem : c ∈ kana) (hc : ¬IsKana c) : romaji? kana = none := by
  rw [Option.eq_none_iff_forall_ne_some]
  intro romaji h
  obtain ⟨e, he, rfl, -⟩ := mem_of_romaji? h
  exact hc (entries_kana e he c hmem)

theorem gemination?_foreign {c : Char} (hc : ¬IsKana c) : gemination? c = none := by
  rw [gemination?, Option.map_eq_none_iff, List.find?_eq_none]
  intro e he hmem
  exact hc (geminated_kana e he c (of_decide_eq_true hmem))

theorem romaji?_hankaku (kana : Text) : romaji? kana.hankaku = romaji? kana := by
  by_cases h : ∀ c ∈ kana, Width.half c = c
  · rw [Text.hankaku, List.map_congr_left h, List.map_id']
  · push Not at h
    obtain ⟨c, hmem, hne⟩ := h
    obtain ⟨hc, hhalf⟩ := (foreign_of_half c).resolve_left hne
    have hhankaku : Width.half c ∈ kana.hankaku := List.mem_map_of_mem hmem
    rw [romaji?_foreign hmem hc, romaji?_foreign hhankaku hhalf]

theorem gemination?_half (c : Char) : gemination? (Width.half c) = gemination? c := by
  rcases foreign_of_half c with h | ⟨hc, hhalf⟩
  · rw [h]
  · rw [gemination?_foreign hc, gemination?_foreign hhalf]

end Syllabary

/-! ## Morae -/

namespace Romanizer

variable {r : Romanizer}

theorem needsApostrophe_foreign {c : Char} (hc : ¬IsKana c) : r.needsApostrophe c = false := by
  have hvowels : ∀ d ∈ "あいうえおやゆよ".toList, IsKana d := by decide
  have hna : ∀ d ∈ "なにぬねの".toList, IsKana d := by decide
  rw [needsApostrophe, List.contains_eq_mem, List.contains_eq_mem, decide_eq_false (mt (hvowels c) hc),
    decide_eq_false (mt (hna c) hc), Bool.and_false, Bool.or_false]

theorem needsApostrophe_half (c : Char) : r.needsApostrophe (Width.half c) = r.needsApostrophe c := by
  rcases foreign_of_half c with h | ⟨hc, hhalf⟩
  · rw [h]
  · rw [needsApostrophe_foreign hc, needsApostrophe_foreign hhalf]

theorem romajiOf_half (c : Char) : romajiOf (Width.half c) = romajiOf c := by
  have hsyllabary := Syllabary.romaji?_hankaku [c]
  simp only [Text.hankaku, List.map_cons, List.map_nil] at hsyllabary
  rw [romajiOf, hsyllabary, romajiOf]
  simp only [half_eq_break, Width.half_half]

theorem digraph?_hankaku (t : Text) : digraph? t.hankaku = digraph? t := by
  match t with
  | [] => rfl
  | [c] => rfl
  | c :: d :: rest => exact Syllabary.romaji?_hankaku [c, d]

/-- What is ahead of a character does not tell widths apart. -/
theorem head?_hankaku_any (t : Text) : t.hankaku.head?.any r.needsApostrophe = t.head?.any r.needsApostrophe := by
  cases t with
  | nil => rfl
  | cons c t => exact needsApostrophe_half c

theorem head?_hankaku_bind (t : Text) :
    t.hankaku.head?.bind Syllabary.gemination? = t.head?.bind Syllabary.gemination? := by
  cases t with
  | nil => rfl
  | cons c t => exact Syllabary.gemination?_half c

theorem lengthen_hankaku (m : Mora) (t : Text) : m.lengthen t.hankaku = m.lengthen t := by
  have hget : t.hankaku[m.consumed]? = t[m.consumed]?.map Width.half := List.getElem?_map ..
  rw [Mora.lengthen, Mora.lengthen, hget]
  cases t[m.consumed]? with
  | none => rfl
  | some c =>
    rcases eq_or_ne c 'ー' with rfl | hc
    · rfl
    · have hhalf : Width.half c ≠ 'ー' := mt (half_eq_iff (by decide)).1 hc
      simp only [Option.map_some]
      split
      · rename_i hmark _
        exact absurd (Option.some.inj hmark) hhalf
      · split
        · rename_i hmark _
          exact absurd (Option.some.inj hmark) hc
        · rfl

theorem bareMora?_cons {c : Char} (hn : c ≠ 'ん') (hs : c ≠ 'っ') (t : Text) : r.bareMora? (c :: t) =
    match digraph? (c :: t) with
    | some romaji => some ⟨2, romaji, by decide⟩
    | none => some (.single (romajiOf c)) :=
  bareMora?.eq_4 r c t hn hs

/-- The induction is along the morae that a nasal and a small tsu merge with; their texts are half-width forms too. -/
theorem bareMora?_hankaku (t : Text) : r.bareMora? t.hankaku = r.bareMora? t := by
  fun_induction bareMora? r t with
  | case1 => rfl
  | case2 rest hnext =>
    rw [hankaku_kana (by decide), bareMora?, head?_hankaku_any, if_pos hnext]
  | case3 rest hnext next hbare ih =>
    rw [hankaku_kana (by decide), bareMora?, head?_hankaku_any, if_neg hnext, ih, hbare]
    dsimp only
    rw [lengthen_hankaku]
  | case4 rest hnext hbare ih =>
    rw [hankaku_kana (by decide), bareMora?, head?_hankaku_any, if_neg hnext, ih, hbare]
  | case5 rest consonant hdouble ih =>
    rw [hankaku_kana (by decide), bareMora?, head?_hankaku_bind, hdouble]
    dsimp only
    rw [ih]
  | case6 rest hdouble =>
    rw [hankaku_kana (by decide), bareMora?, head?_hankaku_bind, hdouble]
  | case7 first rest hn hs romaji hdigraph =>
    have hhalf := (digraph?_hankaku (first :: rest)).trans hdigraph
    rw [hankaku_cons] at hhalf ⊢
    rw [bareMora?_cons (mt (half_eq_iff (by decide)).1 hn) (mt (half_eq_iff (by decide)).1 hs), hhalf]
  | case8 first rest hn hs hdigraph =>
    have hhalf := (digraph?_hankaku (first :: rest)).trans hdigraph
    rw [hankaku_cons] at hhalf ⊢
    rw [bareMora?_cons (mt (half_eq_iff (by decide)).1 hn) (mt (half_eq_iff (by decide)).1 hs), hhalf]
    dsimp only
    rw [romajiOf_half]

theorem mora?_hankaku (t : Text) : r.mora? t.hankaku = r.mora? t := by
  rw [mora?, mora?, bareMora?_hankaku]
  exact congrArg (Option.map · (r.bareMora? t)) (funext fun m => lengthen_hankaku m t)

/-- The morae are the same, with as many characters each. -/
theorem morae_hankaku (t : Text) : r.morae t.hankaku = r.morae t := by
  induction t using morae.induct (r := r) with
  | case1 => rfl
  | case2 c rest hmora =>
    obtain ⟨m, hm⟩ := mora?_cons r c rest
    rw [hm] at hmora
    cases hmora
  | case3 c rest m hmora ih =>
    have hhalf : r.mora? (Width.half c :: Text.hankaku rest) = some m := (mora?_hankaku (c :: rest)).trans hmora
    have hdrop : (Text.hankaku (c :: rest)).drop m.consumed = Text.hankaku ((c :: rest).drop m.consumed) :=
      List.map_drop.symm
    rw [hankaku_cons] at hdrop ⊢
    rw [morae_of_mora? hhalf, morae_of_mora? hmora, hdrop, ih]

theorem digraph?_foreign {c : Char} (hc : ¬IsKana c) (t : Text) : digraph? (c :: t) = none := by
  cases t with
  | nil => rfl
  | cons d t => exact Syllabary.romaji?_foreign (List.mem_cons_self ..) hc

theorem romajiOf_foreign {c : Char} (hc : ¬IsKana c) (hbreak : c ≠ '\n') : romajiOf c = [Width.half c] := by
  rw [romajiOf, Syllabary.romaji?_foreign (List.mem_singleton_self c) hc]
  exact if_neg hbreak

theorem lengthen_of_ne {m : Mora} {t : Text} (h : t[m.consumed]? ≠ some 'ー') : m.lengthen t = m := by
  unfold Mora.lengthen
  split
  · rename_i hmark _
    exact absurd hmark h
  · rfl

/-- What is foreign to the syllabary is a mora of its own, in its half-width form. -/
theorem mora?_foreign {c : Char} {t : Text} (hc : ¬IsKana c) (hbreak : c ≠ '\n') (h : ∀ d ∈ t, ¬IsKana d) :
    r.mora? (c :: t) = some (.single [Width.half c]) := by
  have hn : c ≠ 'ん' := by
    rintro rfl
    exact hc (by decide)
  have hs : c ≠ 'っ' := by
    rintro rfl
    exact hc (by decide)
  have hnext : (c :: t)[1]? ≠ some 'ー' := by
    intro hmark
    exact h 'ー' (List.mem_of_getElem? (show t[0]? = some 'ー' from hmark)) (by decide)
  rw [mora?, bareMora?_cons hn hs, digraph?_foreign hc, romajiOf_foreign hc hbreak]
  exact congrArg some (lengthen_of_ne hnext)

theorem romanize_foreign {t : Text} (h : ∀ c ∈ t, ¬IsKana c ∧ c ≠ '\n') : r.romanize t = t.hankaku := by
  induction t with
  | nil => rw [romanize, morae, List.flatMap_nil, Text.hankaku, List.map_nil]
  | cons c t ih =>
    obtain ⟨⟨hc, hbreak⟩, ht⟩ := List.forall_mem_cons.1 h
    rw [romanize, morae_of_mora? (mora?_foreign hc hbreak fun d hd => (ht d hd).1), List.flatMap_cons, hankaku_cons,
      ← ih ht]
    rfl

theorem romanize_hankaku (t : Text) : r.romanize t.hankaku = r.romanize t := by
  rw [romanize, morae_hankaku, romanize]

theorem morae_zenkaku (t : Text) : r.morae t.zenkaku = r.morae t := by
  rw [← morae_hankaku t.zenkaku, Text.hankaku_zenkaku, morae_hankaku]

end Romanizer

/-! ## Keystrokes -/

namespace Typing

variable {typing : Typing}

theorem length_kanaKeys_half (c : Char) : (typing.kanaKeys (Width.half c)).length = (typing.kanaKeys c).length := by
  rcases Width.half_cases c with h | h
  · rw [h]
  · obtain ⟨hhalf, hbreak⟩ := pairs_foreign _ h (Width.half c) (by simp)
    obtain ⟨hc, hbreak'⟩ := pairs_foreign _ h c (by simp)
    rw [kanaKeys_of_unmarked typing marked_kana hhalf hbreak, kanaKeys_of_unmarked typing marked_kana hc hbreak']
    rfl

theorem keyCount_hankaku (typing : Typing) (t : Text) : typing.keyCount t.hankaku = typing.keyCount t := by
  cases h : typing.layout.kind with
  | romaji =>
    rw [keyCount, keyCount, h]
    dsimp only
    rw [Romanizer.keyCount, Romanizer.keyCount, Romanizer.keys, Romanizer.romanize_hankaku, Romanizer.keys]
  | kana =>
    simp only [keyCount, h, Text.hankaku, List.flatMap_map, List.length_flatMap, length_kanaKeys_half]

end Typing

/-- The romaji of a text does not depend on the width of its characters, and neither does the number of keystrokes, on
any layout: the morae are the same one for one. What has two widths is half-width in it, as in a text without kana.
Either width of a text can be told from the other. -/
theorem romanize_zenkaku_hankaku (r : Romanizer) (t : Text) :
    r.romanize t.zenkaku = r.romanize t ∧ r.romanize t.hankaku = r.romanize t ∧
      r.morae t.zenkaku = r.morae t ∧ r.morae t.hankaku = r.morae t ∧
      r.keyCount t.zenkaku = r.keyCount t ∧
      (∀ layout, Typing.keyCount ⟨r, layout⟩ t.zenkaku = Typing.keyCount ⟨r, layout⟩ t) ∧
      ((∀ c ∈ t, ¬IsKana c ∧ c ≠ '\n') → r.romanize t = t.hankaku) ∧ t.zenkaku.hankaku = t.hankaku ∧
      t.hankaku.zenkaku = t.zenkaku := by
  have hcount : ∀ layout, Typing.keyCount ⟨r, layout⟩ t.zenkaku = Typing.keyCount ⟨r, layout⟩ t := by
    intro layout
    rw [← Typing.keyCount_hankaku _ t.zenkaku, Text.hankaku_zenkaku, Typing.keyCount_hankaku]
  refine ⟨?_, Romanizer.romanize_hankaku t, Romanizer.morae_zenkaku t, Romanizer.morae_hankaku t, hcount .standard,
    hcount, Romanizer.romanize_foreign, Text.hankaku_zenkaku t, Text.zenkaku_hankaku t⟩
  rw [Romanizer.romanize, Romanizer.morae_zenkaku, Romanizer.romanize]

theorem romanize_zenkaku_hankaku_letters :
    let t : Text := "Ａ ｂ！".toList
    (∀ c ∈ t, ¬IsKana c ∧ c ≠ '\n') ∧ Romanizer.romanize {} t = "A b!".toList ∧
      Romanizer.romanize {} t.zenkaku = "A b!".toList := by
  intro t
  have hforeign : ∀ c ∈ t, ¬IsKana c ∧ c ≠ '\n' := by decide
  obtain ⟨hzenkaku, -, -, -, -, -, hletters, -, -⟩ := romanize_zenkaku_hankaku {} t
  have hromaji : Romanizer.romanize {} t = "A b!".toList := (hletters hforeign).trans (by decide)
  exact ⟨hforeign, hromaji, hzenkaku.trans hromaji⟩

end KanaTutor
