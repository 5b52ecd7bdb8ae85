/-
Texts that are put together and cut again: at a character that does not occur before the place, or after it, from the
white space around them, and into their words.
-/
import KanaTutor.Text.Blank

namespace KanaTutor.Text

/-! ## Cutting at a character -/

theorem cutAt_append {c : Char} {before : Text} (h : c ∉ before) (after : Text) :
    cutAt c (before ++ c :: after) = some (before, after) := by
  induction before with
  | nil => exact if_pos rfl
  | cons x before ih =>
    rw [List.mem_cons, not_or] at h
    rw [List.cons_append, cutAt, if_neg (Ne.symm h.1), ih h.2]
    rfl

theorem cutAt_eq_some_iff {c : Char} {t before after : Text} :
    cutAt c t = some (before, after) ↔ t = before ++ c :: after ∧ c ∉ before := by
  constructor
  · intro h
    refine ⟨eq_of_cutAt h, ?_⟩
    induction t generalizing before with
    | nil => cases h
    | cons x t ih =>
      rw [cutAt] at h
      split at h
      · cases h
        exact List.not_mem_nil
      · rename_i hx
        obtain ⟨⟨before', after'⟩, hrest, heq⟩ := Option.map_eq_some_iff.1 h
        cases heq
        rw [List.mem_cons, not_or]
        exact ⟨Ne.symm hx, ih hrest⟩
  · rintro ⟨rfl, h⟩
    exact cutAt_append h after

theorem cutAtLast_of_not_mem {c : Char} {t : Text} (h : c ∉ t) : cutAtLast c t = none := by
  induction t with
  | nil => rfl
  | cons x t ih =>
    rw [List.mem_cons, not_or] at h
    rw [cutAtLast, ih h.2]
    exact if_neg (Ne.symm h.1)

theorem cutAtLast_append {c : Char} {after : Text} (h : c ∉ after) (before : Text) :
    cutAtLast c (before ++ c :: after) = some (before, after) := by
  induction before with
  | nil =>
    rw [List.nil_append, cutAtLast, cutAtLast_of_not_mem h]
    exact if_pos rfl
  | cons x before ih => rw [List.cons_append, cutAtLast, ih]

/-! ## White space -/

theorem trimStart_of_head {t : Text} (h : ∀ c ∈ t.head?, isBlank c = false) : t.trimStart = t := by
  cases t with
  | nil => rfl
  | cons c t => exact List.dropWhile_cons_of_neg (by simp [h c rfl])

theorem trimEnd_of_getLast {t : Text} (h : ∀ c ∈ t.getLast?, isBlank c = false) : t.trimEnd = t := by
  have hreverse : trimStart t.reverse = t.reverse := by
    refine trimStart_of_head ?_
    rwa [List.head?_reverse]
  show (trimStart t.reverse).reverse = t
  rw [hreverse, List.reverse_reverse]

/-- A text that neither begins nor ends with white space is trimmed already. -/
theorem trim_of_ends {t : Text} (hfirst : ∀ c ∈ t.head?, isBlank c = false)
    (hlast : ∀ c ∈ t.getLast?, isBlank c = false) : t.trim = t := by
  rw [trim, trimStart_of_head hfirst, trimEnd_of_getLast hlast]

theorem trim_of_not_blank {t : Text} (h : ∀ c ∈ t, isBlank c = false) : t.trim = t :=
  trim_of_ends (fun c hc => h c (List.mem_of_mem_head? hc)) (fun c hc => h c (List.mem_of_mem_getLast? hc))

/-- White space before a text is trimmed off with the rest of it. -/
theorem trim_append_of_blank {blank : Text} (h : ∀ c ∈ blank, isBlank c = true) (t : Text) :
    (blank ++ t).trim = t.trim := by
  rw [trim, trim, trimStart, List.dropWhile_append_of_pos h]
  rfl

theorem trimEnd_append_of_blank (t : Text) {blank : Text} (h : ∀ c ∈ blank, isBlank c = true) :
    (t ++ blank).trimEnd = t.trimEnd := by
  have hreverse : ∀ c ∈ blank.reverse, isBlank c = true := by
    simpa using h
  rw [trimEnd, List.reverse_append, List.dropWhile_append_of_pos hreverse, trimEnd]

theorem isBlank_getLast_trimEnd (t : Text) : ∀ c ∈ t.trimEnd.getLast?, isBlank c = false := by
  intro c hc
  rw [trimEnd, List.getLast?_reverse] at hc
  have hhead := List.head?_dropWhile_not isBlank t.reverse
  rwa [Option.mem_def.1 hc] at hhead

/-! ## Words -/

theorem words_cons (c : Char) (rest : Text) : words (c :: rest) =
    if isBlank c then words rest
    else
      match rest, words rest with
      | d :: _, word :: others => if isBlank d then [c] :: word :: others else (c :: word) :: others
      | _, _ => [[c]] := rfl

theorem words_append_of_blank {blank : Text} (h : ∀ c ∈ blank, isBlank c = true) (t : Text) :
    words (blank ++ t) = words t := by
  induction blank with
  | nil => rfl
  | cons c blank ih =>
    obtain ⟨hc, hblank⟩ := List.forall_mem_cons.1 h
    rw [List.cons_append, words_cons, if_pos hc, ih hblank]

/-- A word is taken off the front of a text up to the white space behind it. -/
theorem words_append {word rest : Text} (hne : word ≠ []) (hword : ∀ c ∈ word, isBlank c = false)
    (hrest : ∀ c ∈ rest.head?, isBlank c = true) : words (word ++ rest) = word :: words rest := by
  induction word with
  | nil => exact absurd rfl hne
  | cons c word ih =>
    obtain ⟨hc, hword⟩ := List.forall_mem_cons.1 hword
    rw [List.cons_append, words_cons, if_neg (by simp [hc])]
    cases word with
    | nil =>
      cases rest with
      | nil => rfl
      | cons d rest =>
        rw [List.nil_append]
        cases words (d :: rest) with
        | nil => rfl
        | cons first others => exact if_pos (hrest d rfl)
    | cons d word =>
      have hd : ¬isBlank d = true := by simp [hword d (List.mem_cons_self ..)]
      rw [ih (List.cons_ne_nil d word) hword, List.cons_append]
      exact if_neg hd

end KanaTutor.Text
