/-
The hints that lead through a target. After what a hint covers is typed, what remains is what it leaves of the text, so
the hints are those of the plain text, one after the other. They are hints for the text as it stands, and the keys that
count are those of its reading. Both are the same keys where the reading is the text, that is in a text without runs
and without katakana; on a kana layout, the hints for a katakana leave out nothing but the mark of its hiragana.
-/
import KanaTutor.Practice.Target
import KanaTutor.Proofs.Kana.KeyCount
import KanaTutor.Proofs.Kana.Widths
import KanaTutor.Proofs.Ruby.Splitting

namespace KanaTutor

/-! ## Text without runs -/

namespace Ruby

theorem flatMap_segments {f : Segment → Text} (hf : ∀ t, f (.plain t) = t) {t : Text}
    (h : ∀ c ∈ t, isMarker c = false) : (segments t).flatMap f = t := by
  induction t with
  | nil => rw [segments, List.flatMap_nil]
  | cons c t ih =>
    obtain ⟨hc, ht⟩ := List.forall_mem_cons.1 h
    rw [segments_cons fun hanchor => absurd hanchor (isMarker_false.1 hc).1, flatMap_consPlain hf, ih ht]

end Ruby

theorem Target.ofText_unmarked (typing : Typing) {t : Text} (h : ∀ c ∈ t, Ruby.isMarker c = false) :
    Target.ofText typing t = ⟨t, t.hiragana, typing.keyCount t.hiragana⟩ := by
  rw [Target.ofText, Ruby.plain, Ruby.reading, Ruby.flatMap_segments (fun _ => rfl) h,
    Ruby.flatMap_segments (fun _ => rfl) h]

/-! ## From hint to hint -/

theorem Target.afterCommon_append (typed rest : Text) : Target.afterCommon (typed ++ rest) typed = rest := by
  induction typed with
  | nil => cases rest <;> rfl
  | cons c typed ih => rw [List.cons_append, Target.afterCommon, if_pos rfl, ih]

/-! ## Katakana -/

theorem katakana_range {c : Char} (h : hiragana c ≠ c) :
    0x30A1 ≤ c.toNat ∧ c.toNat ≤ 0x30FE ∧ hiragana c = Char.ofNat (c.toNat - 0x60) := by
  unfold hiragana at h ⊢
  split at h
  · rename_i hkatakana
    rw [if_pos hkatakana]
    rcases hkatakana with ⟨hlo, hhi⟩ | rfl | rfl
    · exact ⟨Width.toNat_le hlo, Nat.le_trans (Width.toNat_le hhi) (by decide), rfl⟩
    · decide
    · decide
  · exact absurd rfl h

theorem hiragana_ne_break {c : Char} (h : hiragana c ≠ c) : hiragana c ≠ '\n' := by
  obtain ⟨hlo, hhi, heq⟩ := katakana_range h
  have hvalid : (c.toNat - 0x60).isValidChar := .inl (by omega)
  intro hbreak
  have hnat : (hiragana c).toNat = c.toNat - 0x60 := by
    rw [heq, Char.ofNat, dif_pos hvalid]
    rfl
  rw [hbreak] at hnat
  have : '\n'.toNat = 10 := rfl
  omega

/-- No katakana can be typed with a mark. -/
theorem marked_hiragana : ∀ p ∈ marked, hiragana p.1 = p.1 := by decide

namespace Typing

variable {typing : Typing} {target : Target}

/-- The hints from a typed text on, where the learner types what each of them covers: always the hint for what remains,
until nothing does. -/
inductive Guides (typing : Typing) (target : Target) : Text → List Hint → Prop where
  | done {typed : Text} : target.remaining typed = [] → Guides typing target typed []
  | next {typed : Text} {hints : List Hint} : target.remaining typed ≠ [] →
      Guides typing target
        (typed ++ (target.remaining typed).take (typing.hint (target.remaining typed)).consumed) hints →
      Guides typing target typed (typing.hint (target.remaining typed) :: hints)

theorem remaining_of_plain {typed rest : Text} (h : target.plain = typed ++ rest) : target.remaining typed = rest := by
  rw [Target.remaining, h, Target.afterCommon_append]

theorem plain_of_consumed {typed rest : Text} (h : target.plain = typed ++ rest) (n : Nat) :
    target.plain = (typed ++ rest.take n) ++ rest.drop n := by
  rw [h, List.append_assoc, List.take_append_drop]

theorem guides_hints (typing : Typing) {typed rest : Text} (h : target.plain = typed ++ rest) :
    Guides typing target typed (typing.hints rest) := by
  induction rest using hint_induction typing generalizing typed with
  | nil =>
    rw [hints_nil]
    exact .done (remaining_of_plain h)
  | cons c rest ih =>
    have hremaining := remaining_of_plain h
    rw [hints_cons, ← hremaining]
    refine .next (by rw [hremaining]; exact List.cons_ne_nil c rest) ?_
    rw [hremaining]
    exact ih (plain_of_consumed h _)

/-- Nothing else leads through the target. -/
theorem eq_hints_of_guides {typed rest : Text} {hs : List Hint} (hguides : Guides typing target typed hs)
    (h : target.plain = typed ++ rest) : hs = typing.hints rest := by
  induction hguides generalizing rest with
  | done hremaining =>
    rw [remaining_of_plain h] at hremaining
    rw [hremaining, hints_nil]
  | next hremaining _ ih =>
    rw [remaining_of_plain h] at hremaining ih ⊢
    cases rest with
    | nil => exact absurd rfl hremaining
    | cons c rest => rw [hints_cons, ih (plain_of_consumed h _)]

/-! ## Marks of katakana -/

/-- A katakana whose hiragana is typed with a mark. -/
def missesMark (typing : Typing) (c : Char) : Bool :=
  KanaTutor.hiragana c ≠ c && (decompose? typing.layout.smallKana (KanaTutor.hiragana c)).isSome

/-- A katakana, that is a character that is not its own hiragana, is typed as it is, without a mark. -/
theorem kanaKeys_katakana (typing : Typing) {c : Char} (h : KanaTutor.hiragana c ≠ c) : typing.kanaKeys c = [c] := by
  have hbreak : c ≠ '\n' := by
    rintro rfl
    exact h (by decide)
  exact kanaKeys_of_unmarked typing (P := fun d => KanaTutor.hiragana d = d) marked_hiragana h hbreak

theorem length_kanaKeys_hiragana (typing : Typing) (c : Char) :
    (typing.kanaKeys (KanaTutor.hiragana c)).length =
      (typing.kanaKeys c).length + if typing.missesMark c then 1 else 0 := by
  by_cases h : KanaTutor.hiragana c = c
  · simp [missesMark, h]
  · rw [kanaKeys_katakana typing h, kanaKeys, if_neg (hiragana_ne_break h)]
    cases hkeys : decompose? typing.layout.smallKana (KanaTutor.hiragana c) with
    | none => simp [missesMark, hkeys]
    | some keys => simp [missesMark, hkeys, h]

/-- A kana layout counts the marks of the katakana, which are typed without. -/
theorem keyCount_hiragana (hkana : typing.layout.kind = .kana) (t : Text) :
    typing.keyCount t.hiragana = typing.keyCount t + t.countP typing.missesMark := by
  rw [keyCount, keyCount, hkana, Text.hiragana]
  dsimp only
  induction t with
  | nil => rfl
  | cons c t ih =>
    rw [List.map_cons, List.flatMap_cons, List.flatMap_cons, List.length_append, List.length_append, ih,
      length_kanaKeys_hiragana, List.countP_cons]
    omega

/-! ## What is hinted and what is counted -/

/-- The keystrokes that hints show, and the one that settles a final `n` of a romaji layout. -/
def hintedCount (typing : Typing) (hs : List Hint) : Nat :=
  (hs.map fun h => h.sequence.length).sum +
    if typing.layout.kind = .romaji ∧ (hs.flatMap Hint.sequence).getLast? = some 'n' then 1 else 0

theorem hintedCount_hints (typing : Typing) (t : Text) : typing.hintedCount (typing.hints t) = typing.keyCount t := by
  rw [hintedCount, keyCount_eq_length_keys, ← sequence_hints, List.length_flatMap]

theorem hiragana_eq_self {t : Text} (h : ∀ c ∈ t, KanaTutor.hiragana c = c) : t.hiragana = t := by
  rw [Text.hiragana, List.map_congr_left h, List.map_id']

/-- The hints that lead through a text without runs, there being just one way, have the keystrokes of the text, less
the one that settles a final `n`; what is counted are those of its hiragana. So the hints have what is counted if the
text is without katakana. On a kana layout they otherwise miss one keystroke for each katakana whose hiragana takes a
mark. -/
theorem guides_count (typing : Typing) {t : Text} (hmarkers : ∀ c ∈ t, Ruby.isMarker c = false) :
    let target := Target.ofText typing t
    ∃ hs, Guides typing target [] hs ∧ (∀ hs', Guides typing target [] hs' → hs' = hs) ∧
      typing.hintedCount hs = typing.keyCount t ∧ target.keyCount = typing.keyCount t.hiragana ∧
      ((∀ c ∈ t, KanaTutor.hiragana c = c) → typing.hintedCount hs = target.keyCount) ∧
      (typing.layout.kind = .kana → target.keyCount = typing.hintedCount hs + t.countP typing.missesMark) := by
  intro target
  have htarget : target = ⟨t, t.hiragana, typing.keyCount t.hiragana⟩ := Target.ofText_unmarked typing hmarkers
  have hplain : target.plain = [] ++ t := by rw [htarget, List.nil_append]
  have hcount : target.keyCount = typing.keyCount t.hiragana := by rw [htarget]
  have hhinted := hintedCount_hints typing t
  refine ⟨typing.hints t, guides_hints typing hplain, fun hs' h => eq_hints_of_guides h hplain, hhinted, hcount, ?_, ?_⟩
  · intro hhiragana
    rw [hhinted, hcount, hiragana_eq_self hhiragana]
  · intro hkana
    rw [hhinted, hcount, keyCount_hiragana hkana]

theorem guides_count_mixed :
    let mixed := "Ａか！ん".toList
    let katakana := "ガか".toList
    let kana : Typing := { layout := ⟨.kana, ⟨[], []⟩, [], []⟩ }
    (∀ t ∈ [mixed, katakana], ∀ c ∈ t, Ruby.isMarker c = false) ∧ (∀ c ∈ mixed, KanaTutor.hiragana c = c) ∧
      (∃ hs, Guides {} (Target.ofText {} mixed) [] hs ∧ hintedCount {} hs = 6 ∧ (Target.ofText {} mixed).keyCount = 6) ∧
      ∃ hs, Guides kana (Target.ofText kana katakana) [] hs ∧ kana.hintedCount hs = 2 ∧
        (Target.ofText kana katakana).keyCount = 3 := by
  intro mixed katakana kana
  have hmarkers : ∀ t ∈ [mixed, katakana], ∀ c ∈ t, Ruby.isMarker c = false := by decide
  have hhiragana : ∀ c ∈ mixed, KanaTutor.hiragana c = c := by decide
  obtain ⟨hs, hguides, -, hhinted, -, hsame, -⟩ := guides_count {} (hmarkers mixed (by simp))
  obtain ⟨hs', hguides', -, hhinted', -, -, hmissed⟩ := guides_count kana (hmarkers katakana (by simp))
  have hsix : Typing.keyCount {} mixed = 6 := by
    show Romanizer.keyCount {} mixed = 6
    rw [Romanizer.keyCount_eq]
    decide
  refine ⟨hmarkers, hhiragana, ⟨hs, hguides, hhinted.trans hsix, ?_⟩, hs', hguides', hhinted'.trans (by decide), ?_⟩
  · rw [← hsame hhiragana, hhinted, hsix]
  · rw [hmissed rfl, hhinted']
    decide

/-- A katakana has one keystroke in its hint, where two are counted. -/
theorem guides_short : ∃ hs, Guides {} (Target.ofText {} ['カ']) [] hs ∧
    hintedCount {} hs = 1 ∧ (Target.ofText {} ['カ']).keyCount = 2 := by
  have htarget := Target.ofText_unmarked {} (show ∀ c ∈ ['カ'], Ruby.isMarker c = false by decide)
  have hcount (t : Text) : Typing.keyCount {} t =
      (Romanizer.wordsAfter {} none t).length + Romanizer.pending (Romanizer.wordsAfter {} none t) :=
    Romanizer.keyCount_eq t
  refine ⟨Typing.hints {} ['カ'], guides_hints {} (by rw [htarget]; rfl), ?_, ?_⟩
  · rw [hintedCount_hints, hcount]
    decide
  · rw [htarget]
    dsimp only
    rw [hcount]
    decide

end Typing

end KanaTutor
