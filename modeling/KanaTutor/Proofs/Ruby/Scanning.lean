/-
Annotated text split in one pass. The scanner sees each character once and never looks ahead: it keeps what it has
read of a run that is not complete, with its base and its reading so far, and gives it up as plain text when an
anchor begins another run, when the run is closed before its separator, or when the text ends.

What ties the scanner to the splitting is the text that it has not settled yet: the segments it has told, then the
segments of its plain text, the open run and the rest, are the same before and after every character.
-/
import KanaTutor.Proofs.Ruby.Splitting

namespace KanaTutor.Ruby

/-! ## The scanner -/

inductive Place where
  | outside
  | inBase
  | inReading
deriving DecidableEq, Repr

/-- The segments told so far, the plain text after them, and the open run: all of it, its base, its reading. -/
structure Scanner where
  told : List Segment := []
  plain : Text := []
  raw : Text := []
  base : Text := []
  reading : Text := []
  place : Place := .outside
deriving DecidableEq, Repr

/-- The segment of a plain text, unless it is empty. -/
def plainSegment (t : Text) : List Segment := if t.isEmpty then [] else [.plain t]

namespace Scanner

/-- Reads a character. -/
def step (s : Scanner) (c : Char) : Scanner :=
  if c = anchor then { s with plain := s.plain ++ s.raw, raw := [c], base := [], reading := [], place := .inBase }
  else
    match s.place with
    | .outside => { s with plain := s.plain ++ [c] }
    | .inBase =>
      if c = separator then { s with raw := s.raw ++ [c], place := .inReading }
      else if c = terminator then { s with plain := s.plain ++ s.raw ++ [c], raw := [], place := .outside }
      else { s with raw := s.raw ++ [c], base := s.base ++ [c] }
    | .inReading =>
      if c = terminator then
        { told := s.told ++ (plainSegment s.plain ++ [.annotated s.base s.reading]) }
      else { s with raw := s.raw ++ [c], reading := s.reading ++ [c] }

/-- Gives up what is open at the end of the text. -/
def finish (s : Scanner) : List Segment := s.told ++ plainSegment (s.plain ++ s.raw)

/-- The segments of a text, found in one pass. -/
def scan (t : Text) : List Segment := (t.foldl step {}).finish

/-! ## What a character changes -/

/-- The scanner has read the beginning of a run, or is in none. -/
def Sound (s : Scanner) : Prop :=
  match s.place with
  | .outside => s.raw = []
  | .inBase => s.raw = anchor :: s.base ∧ IsRun s.base s.reading ∧ s.reading = []
  | .inReading => s.raw = anchor :: (s.base ++ separator :: s.reading) ∧ IsRun s.base s.reading

/-- The segments told, with those of all that is not settled. -/
def result (s : Scanner) (rest : Text) : List Segment := s.told ++ prepend s.plain (segments (s.raw ++ rest))

end Scanner

theorem prepend_eq_plainSegment (t : Text) {ss : List Segment} (h : ∀ s ∈ ss.head?, s.isPlain = false) :
    prepend t ss = plainSegment t ++ ss := by
  cases t with
  | nil => rfl
  | cons c t => exact prepend_of_not_plain (List.cons_ne_nil c t) h

/-- An anchor that begins no run is plain text, with all that follows up to the next anchor. -/
theorem segments_anchor {t rest : Text} (ht : ∀ c ∈ t, c ≠ anchor) (h : takeRun? (t ++ rest) = none) :
    segments (anchor :: t ++ rest) = prepend (anchor :: t) (segments rest) := by
  rw [List.cons_append, segments_cons fun _ => h, segments_append ht, prepend_cons]

namespace Scanner

/-- An open run before the next anchor, or at the end of the text, is plain text. -/
theorem segments_raw {s : Scanner} (h : s.Sound) {rest : Text} (hrest : ∀ c ∈ rest.head?, c = anchor) :
    segments (s.raw ++ rest) = prepend s.raw (segments rest) := by
  unfold Sound at h
  split at h
  · rw [h]
    rfl
  · obtain ⟨hraw, hrun, -⟩ := h
    rw [hraw]
    refine segments_anchor (not_anchor_of_base hrun) (takeRun?_base hrun.base fun c hc => ?_)
    rw [hrest c hc]
    decide
  · obtain ⟨hraw, hrun⟩ := h
    rw [hraw]
    refine segments_anchor (not_anchor_of_open hrun) ?_
    rw [List.append_assoc, List.cons_append]
    exact takeRun?_reading hrun hrest

theorem isRun_base_concat {base reading : Text} {c : Char} (h : IsRun base reading) (hc : isMarker c = false) :
    IsRun (base ++ [c]) reading :=
  ⟨List.forall_mem_append.2 ⟨h.base, List.forall_mem_singleton.2 hc⟩, h.reading⟩

theorem isRun_reading_concat {base reading : Text} {c : Char} (h : IsRun base reading) (hc : isReadable c = true) :
    IsRun base (reading ++ [c]) :=
  ⟨h.base, List.forall_mem_append.2 ⟨h.reading, List.forall_mem_singleton.2 hc⟩⟩

theorem sound_step {s : Scanner} (h : s.Sound) (c : Char) : (s.step c).Sound := by
  unfold step
  split
  · rename_i hc
    exact ⟨by rw [hc], ⟨by simp, by simp⟩, rfl⟩
  · rename_i hc
    unfold Sound at h
    split at h
    · rename_i hplace
      simp [Sound, hplace, h]
    · rename_i hplace
      obtain ⟨hraw, hrun, hreading⟩ := h
      simp only [hplace]
      split
      · rename_i hsep
        exact ⟨by simp [hraw, hreading, hsep], hrun⟩
      · split
        · rfl
        · rename_i hsep hter
          simp only [Sound]
          exact ⟨by simp [hraw], isRun_base_concat hrun (isMarker_false.2 ⟨hc, hsep, hter⟩), hreading⟩
    · rename_i hplace
      obtain ⟨hraw, hrun⟩ := h
      simp only [hplace]
      split
      · rfl
      · rename_i hter
        simp only [Sound]
        exact ⟨by simp [hraw], isRun_reading_concat hrun (isReadable_true.2 ⟨hc, hter⟩)⟩

/-- A character moves from what is not settled to the scanner, and changes no segment. -/
theorem result_step {s : Scanner} (h : s.Sound) (c : Char) (rest : Text) :
    (s.step c).result rest = s.result (c :: rest) := by
  unfold step
  split
  · -- an anchor: what is open is given up
    rename_i hc
    subst hc
    simp only [result, prepend_append, List.singleton_append]
    rw [segments_raw h (by simp)]
  · rename_i hc
    unfold Sound at h
    split at h
    · rename_i hplace
      simp only [result, h, prepend_append, List.nil_append, segments_cons fun h => absurd h hc]
      rfl
    · rename_i hplace
      obtain ⟨hraw, hrun, -⟩ := h
      simp only [hplace]
      split
      · simp [result]
      · split
        · -- closed before its separator
          rename_i hter
          subst hter
          have hnone : takeRun? (s.base ++ terminator :: rest) = none :=
            takeRun?_base hrun.base (by simp; decide)
          simp only [result, hraw, List.append_assoc, prepend_append, List.nil_append]
          rw [segments_anchor (not_anchor_of_base hrun) hnone, segments_cons fun h => absurd h hc]
          rfl
        · simp [result]
    · rename_i hplace
      obtain ⟨hraw, hrun⟩ := h
      simp only [hplace]
      split
      · -- the run is complete
        rename_i hter
        subst hter
        have hwhole : s.raw ++ terminator :: rest = (Segment.annotated s.base s.reading).encode ++ rest := by
          simp [hraw, Segment.encode]
        rw [result, result, hwhole, segments_run hrun, prepend_nil, prepend_eq_plainSegment s.plain]
        · simp
        · simp [Segment.isPlain]
      · simp [result]

theorem result_foldl {s : Scanner} (h : s.Sound) (t : Text) :
    (t.foldl step s).Sound ∧ (t.foldl step s).result [] = s.result t := by
  induction t generalizing s with
  | nil => exact ⟨h, rfl⟩
  | cons c t ih =>
    rw [List.foldl_cons, ← result_step h]
    exact ih (sound_step h c)

theorem finish_eq_result {s : Scanner} (h : s.Sound) : s.finish = s.result [] := by
  rw [finish, result, segments_raw h (by simp), ← prepend_append, segments, prepend_eq_plainSegment _ (by simp),
    List.append_nil]

theorem scan_eq_segments (t : Text) : scan t = segments t := by
  obtain ⟨hsound, hresult⟩ := result_foldl (s := {}) rfl t
  rw [scan, finish_eq_result hsound, hresult]
  rfl

/-- The second anchor begins the run anew. -/
example : scan [anchor, 'a', separator, anchor, 'b', separator, 'c', terminator, separator] =
    [.plain [anchor, 'a', separator], .annotated ['b'] ['c'], .plain [separator]] := by decide

end Scanner

/-! ## The grammar -/

/-- The segments of a text, found in one pass, are written as the text. The annotated ones are its runs in the order
in which they stand in it, and the plain ones are neither empty nor next to each other. Conversely, segments that can
be told from what is written are those of what is written. -/
theorem segments_grammar :
    (∀ t : Text, Scanner.scan t = segments t ∧ (segments t).flatMap Segment.encode = t ∧
      (∀ run : Run, run ∈ runsFrom 0 (segments t) ↔ run.StandsIn 0 t) ∧
      ((runsFrom 0 (segments t)).Pairwise fun a b => a.start < b.start) ∧
      (∀ piece, .plain piece ∈ segments t → piece ≠ []) ∧
      (segments t).IsChain fun a b => ¬(a.isPlain ∧ b.isPlain)) ∧
    ∀ ss : List Segment, Canonical ss → segments (ss.flatMap Segment.encode) = ss := by
  constructor
  · intro t
    obtain ⟨hne, hapart⟩ := separated_segments t
    exact ⟨Scanner.scan_eq_segments t, encode_segments t, fun _ => mem_runsFrom_segments,
      runsFrom_pairwise 0 (segments t), hne, hapart⟩
  · intro ss hss
    exact segments_encode hss

namespace Mixed

/-- Two runs next to each other between plain text; one reading has a separator, and one run is empty. -/
def written : List Segment :=
  [.plain ['あ'], .annotated ['漢'] ['か', separator, 'ん'], .annotated [] [], .plain ['。']]

theorem canonical : Canonical written where
  ne_nil := by simp [written]
  apart := by decide
  plain := by
    intro t ht
    simp only [written, List.mem_cons, List.not_mem_nil, or_false, Segment.plain.injEq, reduceCtorEq,
      false_or] at ht
    rcases ht with rfl | rfl <;> simp [isMarker, anchor, separator, terminator]
  annotated := by
    intro base reading h
    simp only [written, List.mem_cons, List.not_mem_nil, or_false, Segment.annotated.injEq, reduceCtorEq,
      false_or] at h
    rcases h with ⟨rfl, rfl⟩ | ⟨rfl, rfl⟩
    · constructor <;> simp [isMarker, isReadable, anchor, separator, terminator]
    · constructor <;> simp

end Mixed

theorem segments_grammar_mixed : Canonical Mixed.written ∧
    segments (Mixed.written.flatMap Segment.encode) = Mixed.written :=
  ⟨Mixed.canonical, segments_grammar.2 _ Mixed.canonical⟩

end KanaTutor.Ruby
