/-
Kana keyboards built in one pass. The pass gives each key its legends by rules that it tries in order, notes that it has
met an underscore, and strikes from the small kana those that the key types now. So it knows, after every key, which
small kana the keys so far leave over; a key that is passed gets its last legends at once, and at the end the small kana
are those that no key of the finished keyboard types.

Such a small kana is typed as the full-size kana and a voicing mark. Every other one has a key, and is typed as it is.
-/
import KanaTutor.Keyboard.Hint
import KanaTutor.Proofs.Keyboard.Strokes

namespace KanaTutor

/-! ## What is on the keys -/

namespace Board

/-- Some key has the character on it, with shift or without. -/
def Carries (b : Board) (c : Char) : Prop := ∃ row ∈ b.rows, ∃ k ∈ row, c ∈ k.base ∨ c ∈ k.shifted

instance (b : Board) : DecidablePred b.Carries := fun c =>
  inferInstanceAs (Decidable (∃ row ∈ b.rows, ∃ k ∈ row, c ∈ k.base ∨ c ∈ k.shifted))

theorem carries_mapKeys {f : Place → Keycap → Keycap} {b : Board} {c : Char} :
    (b.mapKeys f).Carries c ↔ ∃ p ∈ b.places, c ∈ (f p.1 p.2).base ∨ c ∈ (f p.1 p.2).shifted := by
  rw [Carries, exists_key_iff]
  constructor
  · rintro ⟨place, _, hnew, hc⟩
    rw [key?_mapKeys] at hnew
    obtain ⟨k, hk, rfl⟩ := Option.map_eq_some_iff.1 hnew
    exact ⟨(place, k), mem_places.2 hk, hc⟩
  · rintro ⟨⟨place, k⟩, hp, hc⟩
    refine ⟨place, f place k, ?_, hc⟩
    rw [key?_mapKeys, mem_places.1 hp]
    rfl

end Board

namespace Layout

theorem types_iff {b : Board} {c : Char} : types b c = true ↔ b.Carries c := by
  simp [types, Board.Carries]

/-! ## One pass -/

/-- What the pass carries along: the small kana that no key types so far, and whether a key typed an underscore. -/
structure Pass where
  small : Text := KanaTutor.smallKana
  underscored : Bool := false

namespace Pass

/-- The key with its new legends. The rules for the legend without shift exclude each other, and one of them blanks the
legend with shift before that is replaced. -/
def relabel (d : Description) (p : Pass) (place : Place) (k : Keycap) : Keycap :=
  let lower := Text.lowercase k.shifted
  let shifted := if lower = ['_'] ∧ p.underscored then [] else lower
  let base := if isSpace d place k then [Legend.kanaSpace] else k.base
  let (base, shifted) :=
    if d.prefixShift ∧ base = [' '] then ([Legend.shift], [])
    else if d.prefixShift ∧ base = [Legend.shift] then ([], shifted)
    else if isConversion d base then ([], shifted)
    else ((Description.replacement? d.normal base).getD base, shifted)
  ⟨k.width, base, if isConversion d shifted then [] else (Description.replacement? d.shift shifted).getD shifted⟩

/-- One step of the pass. -/
def step (d : Description) (place : Place) (k : Keycap) (p : Pass) : Keycap × Pass :=
  let key := p.relabel d place k
  (key, {
    small := p.small.filter fun c => !key.base.contains c && !key.shifted.contains c
    underscored := p.underscored || Text.lowercase k.shifted = ['_'] })

end Pass

/-- The kana layout of a description, built in one pass over the keys. -/
def inOnePass (b : Board) (d : Description) : Layout :=
  let (board, last) := b.walk (Pass.step d) {}
  { kind := .kana
    board
    smallKana := last.small
    ignored := .voidSymbol :: (if d.prefixShift then [.space] else []) ++ d.henkan.toList }

/-! ## What the pass knows -/

/-- The key types an underscore with shift. -/
def isUnderscore (p : Place × Keycap) : Bool := Text.lowercase p.2.shifted = ['_']

/-- What is known when some keys have been passed. -/
def known (b : Board) (d : Description) (passed : List (Place × Keycap)) : Pass where
  small := KanaTutor.smallKana.filter fun c => passed.all fun p =>
    !(kanaKey b d p.1 p.2).base.contains c && !(kanaKey b d p.1 p.2).shifted.contains c
  underscored := passed.any isUnderscore

/-- The first underscore is further up unless no key passed has one. -/
theorem underscore?_ne_iff {b : Board} {passed ahead : List (Place × Keycap)} {place : Place} {k : Keycap}
    (hplaces : b.places = passed ++ (place, k) :: ahead) (hk : isUnderscore (place, k) = true) :
    underscore? b ≠ some place ↔ passed.any isUnderscore = true := by
  have hfind : underscore? b = ((passed.find? isUnderscore).or (some (place, k))).map (·.1) := by
    rw [underscore?, hplaces, List.find?_append]
    refine congrArg (fun o => Option.map _ (Option.or _ o)) ?_
    exact List.find?_cons_of_pos hk
  rw [hfind]
  cases hpassed : passed.find? isUnderscore with
  | none =>
    rw [List.find?_eq_none] at hpassed
    simp only [Option.none_or, Option.map_some, ne_eq, not_true, false_iff, List.any_eq_true, not_exists, not_and]
    exact hpassed
  | some p =>
    have hmem := List.mem_of_find?_eq_some hpassed
    have hunderscore : passed.any isUnderscore = true := List.any_eq_true.2 ⟨p, hmem, List.find?_some hpassed⟩
    -- the first underscore is among the keys passed, and no place is listed twice
    have hne : p.1 ≠ place := by
      have hnodup := b.nodup_places
      rw [hplaces, List.map_append, List.nodup_append] at hnodup
      exact hnodup.2.2 p.1 (List.mem_map_of_mem hmem) place (by simp)
    simp [hunderscore, hne]

theorem ne_space_of_isSpace {d : Description} {place : Place} {k : Keycap} (h : isSpace d place k = true) :
    k.base ≠ [' '] := by
  intro hbase
  have hrole : Board.modifierRole? k.base place.2 = none := by
    rw [hbase]
    rfl
  rw [isSpace, hrole] at h
  cases h

/-- The rules in order make of a key what its legends are said to be, if the pass knows about the first underscore. -/
theorem relabel_eq {b : Board} {d : Description} {p : Pass} {place : Place} {k : Keycap}
    (h : Text.lowercase k.shifted = ['_'] → (underscore? b ≠ some place ↔ p.underscored = true)) :
    p.relabel d place k = kanaKey b d place k := by
  have hrepeated : (Text.lowercase k.shifted = ['_'] ∧ underscore? b ≠ some place) ↔
      (Text.lowercase k.shifted = ['_'] ∧ p.underscored = true) := and_congr_right h
  have hbecomes : becomesShift d k = true ↔
      d.prefixShift = true ∧ (if isSpace d place k then [Legend.kanaSpace] else k.base) = [' '] := by
    rw [becomesShift, Bool.and_eq_true, decide_eq_true_eq]
    refine and_congr_right fun _ => ?_
    split
    · rename_i hspace
      simp [ne_space_of_isSpace hspace, Legend.kanaSpace]
    · rfl
  simp only [Pass.relabel, kanaKey, kanaBase, kanaShifted, hrepeated, hbecomes]
  generalize (if isSpace d place k then [Legend.kanaSpace] else k.base) = base
  -- only the rule for a shifting space bar looks at the legend with shift as well
  by_cases hspace : d.prefixShift = true ∧ base = [' ']
  · simp [hspace]
  · by_cases hshift : d.prefixShift = true ∧ base = [Legend.shift]
    · simp [hshift, Legend.shift]
    · simp only [hspace, hshift, or_false, if_false]
      split <;> rfl

theorem follows_step (b : Board) (d : Description) :
    Board.Follows (Pass.step d) (known b d) (kanaKey b d) b.places := by
  intro passed place k ahead hplaces
  have hrelabel : (known b d passed).relabel d place k = kanaKey b d place k :=
    relabel_eq fun hk => underscore?_ne_iff hplaces (decide_eq_true hk)
  rw [Pass.step, hrelabel]
  simp [known, isUnderscore, List.filter_filter, Bool.and_comm]

theorem small_known_places (b : Board) (d : Description) :
    (known b d b.places).small = KanaTutor.smallKana.filter (!types (b.mapKeys (kanaKey b d)) ·) := by
  refine List.filter_congr fun c _ => ?_
  rw [Bool.eq_iff_iff, Bool.not_eq_true', ← Bool.not_eq_true, types_iff, Board.carries_mapKeys]
  simp

theorem inOnePass_eq (b : Board) (d : Description) : inOnePass b d = ofKana b d := by
  have hstart : known b d [] = {} := by simp [known]
  have hwalk := Board.walk_eq (follows_step b d)
  rw [hstart] at hwalk
  rw [inOnePass, hwalk]
  simp only [small_known_places]
  rfl

end Layout

/-! ## How small kana are typed -/

/-- The small kana, each with its full-size kana. -/
def fullSizes : List (Char × Char) :=
  [('ぁ', 'あ'), ('ぃ', 'い'), ('ぅ', 'う'), ('ぇ', 'え'), ('ぉ', 'お'), ('ゃ', 'や'), ('ゅ', 'ゆ'), ('ょ', 'よ'),
    ('っ', 'つ')]

theorem exists_fullSize {c : Char} (hc : c ∈ smallKana) : ∃ full, (c, full) ∈ fullSizes := by
  have hkana : smallKana = fullSizes.map (·.1) := by decide
  rw [hkana] at hc
  obtain ⟨⟨_, full⟩, hmem, rfl⟩ := List.mem_map.1 hc
  exact ⟨full, hmem⟩

theorem decompose?_congr {c : Char} {small small' : Text} (h : small.contains c = small'.contains c) :
    decompose? small c = decompose? small' c := by
  simp only [decompose?, h]

theorem decompose?_small {c full : Char} (hc : (c, full) ∈ fullSizes) (small : Text) :
    decompose? small c = if c ∈ small then some (full, Legend.dakuten) else none := by
  have hends : ∀ p ∈ fullSizes, p.1 ∈ smallKana ∧ decompose? [] p.1 = none ∧
      decompose? smallKana p.1 = some (p.2, Legend.dakuten) := by decide
  obtain ⟨hmem, hnone, hsome⟩ := hends (c, full) hc
  split
  · rename_i h
    rw [← hsome]
    exact decompose?_congr (by simp [h, hmem])
  · rename_i h
    rw [← hnone]
    exact decompose?_congr (by simp [h])

namespace Typing

theorem hint_kana {typing : Typing} (h : typing.layout.kind = .kana) (c : Char) (t : Text) :
    (typing.hint (c :: t)).sequence = typing.kanaKeys c := by
  have hnext : typing.next? (c :: t) = some (1, typing.kanaKeys c) := by
    rw [next?, h]
    rfl
  rw [hint, hnext]

theorem kanaKeys_small {typing : Typing} {c full : Char} (hc : (c, full) ∈ fullSizes) :
    typing.kanaKeys c = if c ∈ typing.layout.smallKana then [full, Legend.dakuten] else [c] := by
  have hbreak : ∀ p ∈ fullSizes, p.1 ≠ '\n' := by decide
  rw [kanaKeys, if_neg (hbreak (c, full) hc), decompose?_small hc]
  by_cases h : c ∈ typing.layout.smallKana
  · rw [if_pos h, if_pos h]
  · rw [if_neg h, if_neg h]

theorem strokes_ne_nil {b : Board} {c : Char} (h : b.Carries c) : strokes b [c] ≠ [] := by
  obtain ⟨place, k, hk, hc⟩ := Board.exists_key_iff.1 h
  by_cases hbase : c ∈ k.base
  · have hmem : ⟨place, false⟩ ∈ strokes b [c] := mem_strokes.2 ⟨k, hk, c, by simp, hbase⟩
    exact List.ne_nil_of_mem hmem
  · have hshifted : c ∈ k.shifted := hc.resolve_left hbase
    have hmem : ⟨place, true⟩ ∈ strokes b [c] := mem_strokes.2 ⟨k, hk, c, by simp, hshifted, hbase⟩
    exact List.ne_nil_of_mem hmem

end Typing

/-! ## Small kana without a key -/

namespace Layout

theorem smallKana_ofKana (b : Board) (d : Description) :
    (ofKana b d).smallKana = KanaTutor.smallKana.filter fun c => ¬ (ofKana b d).board.Carries c := by
  refine List.filter_congr fun c _ => ?_
  rw [Bool.eq_iff_iff, Bool.not_eq_true', ← Bool.not_eq_true, types_iff, decide_eq_true_eq]
  rfl

/-- A kana keyboard, built in one pass, has the keys of the keyboard it is made from, each of its width, with new
legends. Its small kana are those that are on none of its keys. Whatever follows it, a small kana that is on a key is
typed by itself, and there is a key to press; any other is typed as its full-size kana and a voicing mark. -/
theorem ofDescription_small {d : Description} (h : d.kind = .kana) (b : Board) :
    ofDescription b d = inOnePass b d ∧
      (ofDescription b d).kind = .kana ∧
      (ofDescription b d).board.name = b.name ∧
      (ofDescription b d).board.rows.map (·.map Keycap.width) = b.rows.map (·.map Keycap.width) ∧
      (ofDescription b d).smallKana =
        KanaTutor.smallKana.filter (fun c => ¬ (ofDescription b d).board.Carries c) ∧
      ∀ c ∈ KanaTutor.smallKana, ∃ full, (c, full) ∈ fullSizes ∧
        ∀ (r : Romanizer) (t : Text),
          let next := Typing.hint ⟨r, ofDescription b d⟩ (c :: t)
          ((ofDescription b d).board.Carries c → next.sequence = [c] ∧ next.strokes ≠ []) ∧
            (¬ (ofDescription b d).board.Carries c → next.sequence = [full, Legend.dakuten]) := by
  have hkana : ofDescription b d = ofKana b d := by rw [ofDescription, h]
  rw [hkana]
  have hwidths : (ofKana b d).board.rows.map (·.map Keycap.width) = b.rows.map (·.map Keycap.width) :=
    Board.map_rows_mapKeys (f := kanaKey b d) (fun _ _ => rfl) b
  refine ⟨(inOnePass_eq b d).symm, rfl, rfl, hwidths, smallKana_ofKana b d, ?_⟩
  intro c hc
  obtain ⟨full, hmem⟩ := exists_fullSize hc
  refine ⟨full, hmem, fun r t => ?_⟩
  have hsequence : (Typing.hint ⟨r, ofKana b d⟩ (c :: t)).sequence = Typing.kanaKeys ⟨r, ofKana b d⟩ c :=
    Typing.hint_kana rfl c t
  rw [Typing.kanaKeys_small hmem] at hsequence
  have hsmall : c ∈ (ofKana b d).smallKana ↔ ¬ (ofKana b d).board.Carries c := by
    rw [smallKana_ofKana, List.mem_filter, decide_eq_true_eq]
    exact and_iff_right hc
  constructor
  · intro hcarries
    rw [if_neg (mt hsmall.1 (not_not_intro hcarries))] at hsequence
    refine ⟨hsequence, ?_⟩
    rw [(Typing.strokes_hint _ _).1, hsequence]
    exact Typing.strokes_ne_nil hcarries
  · intro hcarries
    rw [if_pos (hsmall.2 hcarries)] at hsequence
    exact hsequence

theorem ofDescription_small_prefixShift :
    let b : Board := ⟨"109".toList, [
      [⟨100, ['q'], ['Q']⟩, ⟨100, ['z'], ['Z']⟩, ⟨100, ['-'], ['_']⟩, ⟨100, ['\\'], ['_']⟩],
      [⟨225, ['⇧'], []⟩, ⟨150, "無変換".toList, []⟩, ⟨250, [' '], []⟩, ⟨150, "変換".toList, []⟩, ⟨100, ['⌥'], []⟩]]⟩
    let d : Description := {
      space := some "Alt_R".toList, henkan := some .henkan, muhenkan := some .muhenkan, prefixShift := true
      kind := .kana, normal := [(['q'], ['た']), (['z'], ['っ'])], shift := [(['q'], ['ぁ'])] }
    d.kind = .kana ∧ (ofDescription b d).smallKana = "ぃぅぇぉゃゅょ".toList ∧
      (Typing.hint ⟨{}, ofDescription b d⟩ "っと".toList).sequence = ['っ'] ∧
      (Typing.hint ⟨{}, ofDescription b d⟩ "ゃく".toList).sequence = ['や', '゛'] := by
  intro b d
  obtain ⟨-, -, -, -, hsmall, hnext⟩ := ofDescription_small (d := d) rfl b
  obtain ⟨_, -, htsu⟩ := hnext 'っ' (by decide)
  obtain ⟨full, hfull, hya⟩ := hnext 'ゃ' (by decide)
  obtain rfl : full = 'や' := by simpa [fullSizes] using hfull
  exact ⟨rfl, hsmall.trans (by decide), ((htsu {} ['と']).1 (by decide)).1, (hya {} ['く']).2 (by decide)⟩

end Layout

end KanaTutor
