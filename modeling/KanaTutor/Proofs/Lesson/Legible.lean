/-
Texts that give every round something to type. A text whose plain text is empty begins with an annotation of nothing, if
with anything at all. So a line is safe that is not blank and does not begin like that after its white space: whatever
is drawn after it and joined to it, the round begins with what the line begins with.
-/
import KanaTutor.Proofs.Lesson.Drawing
import KanaTutor.Proofs.Lesson.Passages
import KanaTutor.Proofs.Ruby.Splitting

namespace KanaTutor

/-! ## Plain text -/

namespace Ruby

/-- The beginning of an annotation of nothing. -/
def hollow : Text := [anchor, separator]

theorem plain_nil : plain [] = [] := by
  rw [plain, segments]
  rfl

theorem plain_run {base reading : Text} (h : IsRun base reading) (rest : Text) :
    plain ((Segment.annotated base reading).encode ++ rest) = base ++ plain rest := by
  rw [plain, segments_run h, List.flatMap_cons]
  rfl

theorem plain_cons {c : Char} {rest : Text} (h : c = anchor → takeRun? rest = none) :
    plain (c :: rest) = c :: plain rest := by
  rw [plain, segments_cons h, flatMap_consPlain fun _ => rfl]
  rfl

/-- Nothing is typed for a text only if it begins with an annotation of nothing. -/
theorem plain_ne_nil {t : Text} (hne : t ≠ []) (h : ¬hollow <+: t) : plain t ≠ [] := by
  induction t using run_induction with
  | nil => exact absurd rfl hne
  | run base reading rest hrun =>
    rw [plain_run hrun]
    cases base with
    | nil => exact absurd ⟨_, rfl⟩ h
    | cons c base => exact List.cons_ne_nil c _
  | cons c rest hc =>
    rw [plain_cons hc]
    exact List.cons_ne_nil c _

end Ruby

/-! ## Lines -/

namespace Text

theorem trimStart_append {t : Text} (h : t.trimStart ≠ []) (rest : Text) :
    trimStart (t ++ rest) = t.trimStart ++ rest := by
  have hempty : ¬(t.dropWhile isBlank).isEmpty = true := fun hempty => h (List.isEmpty_iff.1 hempty)
  rw [trimStart, List.dropWhile_append, if_neg hempty]
  rfl

theorem isBlank_head_trimStart {t rest : Text} {c : Char} (h : t.trimStart = c :: rest) : isBlank c = false := by
  have hhead := List.head?_dropWhile_not isBlank t
  rw [trimStart] at h
  rw [h] at hhead
  exact hhead

theorem trimEnd_prefix (t : Text) : t.trimEnd <+: t := by
  have hsuffix := List.reverse_prefix.2 (List.dropWhile_suffix isBlank (l := t.reverse))
  rwa [List.reverse_reverse] at hsuffix

theorem newline_not_mem_withoutBreak {body : Text} (h : '\n' ∉ body) :
    '\n' ∉ withoutBreak body ∧ '\n' ∉ withoutBreak (body ++ ['\n']) := by
  have hbreak : ∀ rest, rest ++ ['\n'] ≠ body := by
    rintro rest rfl
    exact h (List.mem_append_right _ (List.mem_singleton_self _))
  constructor
  · unfold withoutBreak beforeEnd?
    split
    · exact h
    · rename_i rest hrest
      exact absurd (List.isSuffixOf?_eq_some_iff_append_eq.1 hrest) (hbreak rest)
  · unfold withoutBreak beforeEnd?
    rw [List.isSuffixOf?_eq_some_iff_append_eq.2 rfl]
    dsimp only
    cases hreturn : List.isSuffixOf? ['\r'] body with
    | none => exact h
    | some rest =>
      rw [← List.isSuffixOf?_eq_some_iff_append_eq.1 hreturn] at h
      exact fun hmem => h (List.mem_append_left _ hmem)

/-- A line that is kept with its line break has no other one. -/
theorem line_of_mem_linesKeepingBreaks {t line : Text} (h : line ∈ t.linesKeepingBreaks) :
    ∃ body, '\n' ∉ body ∧ (line = body ∨ line = body ++ ['\n']) := by
  induction t generalizing line with
  | nil => cases h
  | cons c t ih =>
    rw [linesKeepingBreaks] at h
    split at h
    · rename_i hc
      rcases List.mem_cons.1 h with rfl | h
      · exact ⟨[], List.not_mem_nil, .inr (by rw [hc]; rfl)⟩
      · exact ih h
    · rename_i hc
      split at h
      · obtain rfl := List.mem_singleton.1 h
        exact ⟨[c], by simpa using Ne.symm hc, .inl rfl⟩
      · rename_i first rest hlines
        rw [hlines] at ih
        rcases List.mem_cons.1 h with rfl | h
        · obtain ⟨body, hbody, hline⟩ := ih List.mem_cons_self
          refine ⟨c :: body, by simp [Ne.symm hc, hbody], ?_⟩
          rcases hline with rfl | rfl
          · exact .inl rfl
          · exact .inr rfl
        · exact ih (List.mem_cons_of_mem _ h)

theorem newline_not_mem_of_mem_lines {t line : Text} (h : line ∈ t.lines) : '\n' ∉ line := by
  obtain ⟨kept, hkept, rfl⟩ := List.mem_map.1 h
  obtain ⟨body, hbody, rfl | rfl⟩ := line_of_mem_linesKeepingBreaks hkept
  · exact (newline_not_mem_withoutBreak hbody).1
  · exact (newline_not_mem_withoutBreak hbody).2

/-- A text without line breaks is one line at most. -/
theorem eq_of_mem_lines {t line : Text} (ht : '\n' ∉ t) (h : line ∈ t.lines) : line = t := by
  have hkept : ∀ u : Text, '\n' ∉ u → u ≠ [] → u.linesKeepingBreaks = [u] := by
    intro u hu hne
    induction u with
    | nil => exact absurd rfl hne
    | cons c u ih =>
      rw [List.mem_cons, not_or] at hu
      rw [linesKeepingBreaks, if_neg (Ne.symm hu.1)]
      cases u with
      | nil => rfl
      | cons d u => rw [ih hu.2 (List.cons_ne_nil d u)]
  by_cases hnil : t = []
  · rw [hnil] at h
    cases h
  · rw [lines, hkept t ht hnil] at h
    obtain rfl := List.mem_singleton.1 h
    unfold withoutBreak beforeEnd?
    split
    · rfl
    · rename_i rest hrest
      rw [← List.isSuffixOf?_eq_some_iff_append_eq.1 hrest] at ht
      exact absurd (List.mem_append_right _ (List.mem_singleton_self _)) ht

end Text

/-- A line gives something to type wherever it comes first: it is not blank, and what it begins with after its white
space is not an annotation of nothing. -/
def Legible (line : Text) : Prop := line.trimStart ≠ [] ∧ ¬Ruby.hollow <+: line.trimStart

instance (line : Text) : Decidable (Legible line) := inferInstanceAs (Decidable (_ ∧ _))

/-- What follows a legible line does not change what it begins with. -/
theorem legible_append {line rest : Text} (h : Legible line) (hrest : ∀ c ∈ rest.head?, isBlank c = true) :
    Legible (line ++ rest) := by
  obtain ⟨hne, hhollow⟩ := h
  rw [Legible, Text.trimStart_append hne]
  refine ⟨List.append_ne_nil_of_left_ne_nil hne rest, fun hbegins => ?_⟩
  match hline : line.trimStart with
  | [] => exact hne hline
  | [c] =>
    -- the second character stands in what follows
    rw [hline, List.singleton_append, Ruby.hollow, List.cons_prefix_cons] at hbegins
    obtain ⟨more, hmore⟩ := hbegins.2
    exact absurd (hrest Ruby.separator (by rw [← hmore]; rfl)) (by decide)
  | c :: d :: more =>
    rw [hline] at hhollow hbegins
    rw [Ruby.hollow, List.cons_append, List.cons_append, List.cons_prefix_cons, List.cons_prefix_cons] at hbegins
    rw [Ruby.hollow, List.cons_prefix_cons, List.cons_prefix_cons] at hhollow
    exact hhollow ⟨hbegins.1, hbegins.2.1, List.nil_prefix⟩

/-- A legible line that is trimmed is legible, and what is typed for it is not nothing. -/
theorem legible_trim {line : Text} (h : Legible line) : Legible line.trim ∧ Ruby.plain line.trim ≠ [] := by
  obtain ⟨hne, hhollow⟩ := h
  obtain ⟨c, rest, hline⟩ := List.exists_cons_of_ne_nil hne
  have hc := Text.isBlank_head_trimStart hline
  obtain ⟨rest', htrim⟩ := Text.trimEnd_cons hc rest
  have hbegins : line.trim <+: line.trimStart := Text.trimEnd_prefix _
  have hcons : line.trim = c :: rest' := by rw [Text.trim, hline, htrim]
  have hsame : line.trim.trimStart = line.trim := by
    rw [hcons]
    exact List.dropWhile_cons_of_neg (by simp [hc])
  have hnil : line.trim ≠ [] := by
    rw [hcons]
    exact List.cons_ne_nil c rest'
  have hhollow' : ¬Ruby.hollow <+: line.trim := fun h => hhollow (h.trans hbegins)
  exact ⟨by rw [Legible, hsame]; exact ⟨hnil, hhollow'⟩, Ruby.plain_ne_nil hnil hhollow'⟩

/-! ## Texts -/

/-- There is something to type for the text, and for any of its lines that are drawn. -/
structure Typeable (t : Text) : Prop where
  plain : Ruby.plain t ≠ []
  lines : ∀ line ∈ t.lines, Legible line

/-- Lines of a text that can all be drawn. -/
def Pool.IsLegible (pool : Pool) : Prop := ∀ line ∈ pool.lines, Legible line ∧ '\n' ∉ line

theorem isLegible_ofText {t : Text} (h : ∀ line ∈ t.lines, Legible line) (perRound : Option Nat) (rounds : Nat) :
    (Pool.ofText t perRound rounds).IsLegible := by
  intro line hline
  exact ⟨h line hline, Text.newline_not_mem_of_mem_lines hline⟩

theorem intercalate_cons (first : Text) (rest : List Text) : ∃ more,
    List.intercalate [' '] (first :: rest) = first ++ more ∧ ∀ c ∈ more.head?, isBlank c = true := by
  cases rest with
  | nil => exact ⟨[], by simp [List.intercalate], fun c hc => nomatch hc⟩
  | cons second rest =>
    refine ⟨[' '] ++ List.intercalate [' '] (second :: rest), ?_, fun c hc => ?_⟩
    · rw [List.intercalate_cons_cons, List.append_assoc]
    · cases hc
      rfl

theorem newline_not_mem_joined {lines : List Text} (h : ∀ line ∈ lines, '\n' ∉ line) : '\n' ∉ Pool.joined lines := by
  have hintercalate : '\n' ∉ List.intercalate [' '] lines := by
    induction lines with
    | nil => exact List.not_mem_nil
    | cons first rest ih =>
      obtain ⟨hfirst, hrest⟩ := List.forall_mem_cons.1 h
      cases rest with
      | nil => simpa [List.intercalate] using hfirst
      | cons second rest =>
        rw [List.intercalate_cons_cons]
        simp [hfirst, ih hrest]
  intro hmem
  have hstart := (Text.trimEnd_prefix _).subset hmem
  exact hintercalate ((List.dropWhile_suffix _).subset hstart)

/-- Legible lines that are drawn make a text for which there is something to type. -/
theorem typeable_joined {lines : List Text} (hne : lines ≠ []) (h : ∀ line ∈ lines, Legible line ∧ '\n' ∉ line) :
    Typeable (Pool.joined lines) := by
  obtain ⟨first, rest, rfl⟩ := List.exists_cons_of_ne_nil hne
  obtain ⟨more, hmore, hblank⟩ := intercalate_cons first rest
  obtain ⟨hlegible, hplain⟩ := legible_trim (legible_append (h first List.mem_cons_self).1 hblank)
  rw [← hmore] at hlegible hplain
  refine ⟨hplain, fun line hline => ?_⟩
  rw [Text.eq_of_mem_lines (newline_not_mem_joined fun l hl => (h l hl).2) hline]
  exact hlegible

/-- A round that is drawn from legible lines has something to type, and leaves legible lines. -/
theorem typeable_nextRound {σ : Type} [ChoiceSource σ] {pool next : Pool} {source after : σ} {t : Text}
    (h : pool.IsLegible) (hnext : pool.nextRound? source = some (t, next, after)) : Typeable t ∧ next.IsLegible := by
  obtain ⟨hround, taken, rfl, hdrawn⟩ := Pool.nextRound_some hnext
  have hmem : ∀ line, line ∈ taken ++ next.lines → line ∈ pool.lines := fun line hline => hdrawn.perm.subset hline
  have hne : taken ≠ [] := by
    have hlength := hdrawn.length
    simp only [Pool.hasNextRound, Bool.and_eq_true, decide_eq_true_eq, Bool.not_eq_true', List.isEmpty_eq_false_iff]
      at hround
    have hpos := List.length_pos_iff.2 hround.1.2
    exact List.length_pos_iff.1 (by rw [hlength]; exact Nat.lt_min.2 ⟨hround.2, hpos⟩)
  exact ⟨typeable_joined hne fun line hline => h line (hmem line (List.mem_append_left _ hline)),
    fun line hline => h line (hmem line (List.mem_append_right _ hline))⟩

end KanaTutor
