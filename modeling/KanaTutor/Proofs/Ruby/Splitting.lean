/-
How annotated text is split. A run is an anchor, a base without markers, a separator, a reading without anchor
and terminator, and a terminator; wherever one stands in a text, it is a segment, and everything between two runs
is one plain segment. So nothing is lost, and the segments of what is written are what was written.

No two runs of a text overlap, since an anchor stands only at the beginning of a run. The splitting meets them one
after the other, and a run that begins later is not changed by what is passed over before.
-/
import KanaTutor.Ruby.Segment
import Mathlib.Data.List.Chain
import Mathlib.Data.List.TakeWhile

namespace KanaTutor.Ruby

/-! ## Runs -/

/-- The base has no markers, and the reading has no anchor and no terminator. -/
structure IsRun (base reading : Text) : Prop where
  base : ∀ c ∈ base, isMarker c = false
  reading : ∀ c ∈ reading, isReadable c = true

instance (base reading : Text) : Decidable (IsRun base reading) :=
  have := List.decidableBAll (isMarker · = false) base
  have := List.decidableBAll (isReadable · = true) reading
  decidable_of_iff ((∀ c ∈ base, isMarker c = false) ∧ ∀ c ∈ reading, isReadable c = true)
    ⟨fun h => ⟨h.1, h.2⟩, fun h => ⟨h.base, h.reading⟩⟩

theorem isMarker_false {c : Char} : isMarker c = false ↔ c ≠ anchor ∧ c ≠ separator ∧ c ≠ terminator := by
  simp [isMarker, and_assoc]

theorem isReadable_true {c : Char} : isReadable c = true ↔ c ≠ anchor ∧ c ≠ terminator := by
  simp [isReadable]

theorem not_anchor_of_base {base reading : Text} (h : IsRun base reading) : ∀ c ∈ base, c ≠ anchor := by
  intro c hc
  exact (isMarker_false.1 (h.base c hc)).1

theorem not_anchor_of_open {base reading : Text} (h : IsRun base reading) :
    ∀ c ∈ base ++ separator :: reading, c ≠ anchor := by
  intro c hc
  rw [List.mem_append, List.mem_cons] at hc
  rcases hc with hc | rfl | hc
  · exact not_anchor_of_base h c hc
  · decide
  · exact (isReadable_true.1 (h.reading c hc)).1

theorem dropWhile_append_marker {p : Char → Bool} {front rest : Text} {c : Char} (hfront : ∀ x ∈ front, p x = true)
    (hc : p c = false) : (front ++ c :: rest).dropWhile p = c :: rest := by
  rw [List.dropWhile_append_of_pos hfront, List.dropWhile_cons_of_neg (by simp [hc])]

theorem takeWhile_append_marker {p : Char → Bool} {front rest : Text} {c : Char} (hfront : ∀ x ∈ front, p x = true)
    (hc : p c = false) : (front ++ c :: rest).takeWhile p = front := by
  rw [List.takeWhile_append_of_pos hfront, List.takeWhile_cons_of_neg (by simp [hc]), List.append_nil]

theorem takeRun?_run {base reading : Text} (h : IsRun base reading) (rest : Text) :
    takeRun? (base ++ separator :: (reading ++ terminator :: rest)) = some (base, reading, rest) := by
  have hbase : ∀ c ∈ base, (!isMarker c) = true := by
    intro c hc
    simp [h.base c hc]
  unfold takeRun?
  rw [dropWhile_append_marker hbase rfl, takeWhile_append_marker hbase rfl]
  dsimp only
  rw [dropWhile_append_marker h.reading rfl, takeWhile_append_marker h.reading rfl]
  simp

theorem run_of_takeRun? {t base reading rest : Text} (h : takeRun? t = some (base, reading, rest)) :
    t = base ++ separator :: (reading ++ terminator :: rest) ∧ IsRun base reading := by
  unfold takeRun? at h
  split at h
  · cases h
  · rename_i c body hbody
    split at h
    · cases h
    · rename_i d rest' hrest
      split at h
      · rename_i hcd
        obtain ⟨rfl, rfl⟩ := hcd
        cases h
        refine ⟨?_, ?_, ?_⟩
        · rw [← hrest, List.takeWhile_append_dropWhile, ← hbody, List.takeWhile_append_dropWhile]
        · intro c hc
          simpa using List.mem_takeWhile_imp hc
        · intro c hc
          exact List.mem_takeWhile_imp hc
      · cases h

/-- A base that another marker than the separator follows, or nothing, makes no run. -/
theorem takeRun?_base {base rest : Text} (hbase : ∀ x ∈ base, isMarker x = false)
    (hrest : ∀ c ∈ rest.head?, isMarker c = true ∧ c ≠ separator) : takeRun? (base ++ rest) = none := by
  unfold takeRun?
  cases rest with
  | nil => rw [List.append_nil, List.dropWhile_eq_nil_iff.2 (by simpa using hbase)]
  | cons c rest =>
    obtain ⟨hc, hsep⟩ := hrest c rfl
    rw [dropWhile_append_marker (by simpa using hbase) (by simp [hc])]
    dsimp only
    split
    · rfl
    · simp [hsep]

/-- A reading that an anchor follows, or nothing, makes no run. -/
theorem takeRun?_reading {base reading rest : Text} (h : IsRun base reading)
    (hrest : ∀ c ∈ rest.head?, c = anchor) : takeRun? (base ++ separator :: (reading ++ rest)) = none := by
  unfold takeRun?
  rw [dropWhile_append_marker (by simpa using h.base) rfl]
  cases rest with
  | nil =>
    dsimp only
    rw [List.append_nil, List.dropWhile_eq_nil_iff.2 h.reading]
  | cons c rest =>
    obtain rfl := hrest c rfl
    dsimp only
    rw [dropWhile_append_marker h.reading rfl]
    rfl

/-! ## One step of the splitting -/

theorem segments_run {base reading : Text} (h : IsRun base reading) (rest : Text) :
    segments ((Segment.annotated base reading).encode ++ rest) = .annotated base reading :: segments rest := by
  have htake := takeRun?_run h rest
  simp only [Segment.encode, List.cons_append, List.append_assoc, List.nil_append]
  rw [segments, if_pos rfl]
  split
  · rename_i heq
    rw [htake] at heq
    cases heq
    rfl
  · rename_i heq
    rw [htake] at heq
    cases heq

theorem segments_cons {c : Char} {rest : Text} (h : c = anchor → takeRun? rest = none) :
    segments (c :: rest) = consPlain c (segments rest) := by
  rw [segments]
  split
  · rename_i hc
    split
    · rename_i heq
      rw [h hc] at heq
      cases heq
    · rfl
  · rfl

/-- Induction along the splitting: a run is taken as a whole, and any other character by itself. -/
@[elab_as_elim]
theorem run_induction {motive : Text → Prop} (t : Text) (nil : motive [])
    (run : ∀ base reading rest, IsRun base reading → motive rest →
      motive ((Segment.annotated base reading).encode ++ rest))
    (cons : ∀ c rest, (c = anchor → takeRun? rest = none) → motive rest → motive (c :: rest)) : motive t := by
  induction t using segments.induct with
  | case1 => exact nil
  | case2 rest base reading after htake ih =>
    obtain ⟨rfl, hrun⟩ := run_of_takeRun? htake
    simpa [Segment.encode] using run base reading after hrun ih
  | case3 rest htake ih => exact cons anchor rest (fun _ => htake) ih
  | case4 c rest hc ih => exact cons c rest (fun h => absurd h hc) ih

/-- Characters put in front of segments, one by one. -/
def prepend (t : Text) (ss : List Segment) : List Segment := t.foldr consPlain ss

@[simp] theorem prepend_nil (ss : List Segment) : prepend [] ss = ss := rfl

@[simp] theorem prepend_cons (c : Char) (t : Text) (ss : List Segment) :
    prepend (c :: t) ss = consPlain c (prepend t ss) := rfl

theorem prepend_append (t u : Text) (ss : List Segment) : prepend (t ++ u) ss = prepend t (prepend u ss) :=
  List.foldr_append

/-- Text without anchors is passed over. -/
theorem segments_append {t : Text} (h : ∀ c ∈ t, c ≠ anchor) (rest : Text) :
    segments (t ++ rest) = prepend t (segments rest) := by
  induction t with
  | nil => rfl
  | cons c t ih =>
    rw [List.forall_mem_cons] at h
    rw [List.cons_append, segments_cons fun hc => absurd hc h.1, ih h.2, prepend_cons]

/-! ## Plain segments -/

def Segment.isPlain : Segment → Bool
  | .plain _ => true
  | .annotated _ _ => false

/-- No plain segment is empty or next to another one. -/
structure Separated (ss : List Segment) : Prop where
  ne_nil : ∀ t, .plain t ∈ ss → t ≠ []
  apart : ss.IsChain fun a b => ¬(a.isPlain ∧ b.isPlain)

theorem separated_nil : Separated [] := by
  constructor <;> simp

theorem separated_annotated {ss : List Segment} (h : Separated ss) (base reading : Text) :
    Separated (.annotated base reading :: ss) := by
  constructor
  · simpa using h.ne_nil
  · rw [List.isChain_cons]
    simpa [Segment.isPlain] using h.apart

theorem separated_consPlain {ss : List Segment} (h : Separated ss) (c : Char) : Separated (consPlain c ss) := by
  unfold consPlain
  split
  · -- the character joins the first segment, which stays as far from the next one
    rename_i t rest
    have hapart := List.isChain_cons.1 h.apart
    constructor
    · intro u hu
      rcases List.mem_cons.1 hu with hu | hu
      · cases hu
        exact List.cons_ne_nil c t
      · exact h.ne_nil u (List.mem_cons_of_mem _ hu)
    · exact List.isChain_cons.2 hapart
  · rename_i hplain
    constructor
    · intro u hu
      rcases List.mem_cons.1 hu with hu | hu
      · cases hu
        exact List.cons_ne_nil c []
      · exact h.ne_nil u hu
    · refine List.isChain_cons.2 ⟨?_, h.apart⟩
      rintro s hs ⟨-, hs'⟩
      cases s with
      | annotated => cases hs'
      | plain t =>
        obtain ⟨rest, rfl⟩ := List.head?_eq_some_iff.1 hs
        exact hplain t rest rfl

theorem separated_segments (t : Text) : Separated (segments t) := by
  induction t using run_induction with
  | nil =>
    rw [segments]
    exact separated_nil
  | run base reading rest hrun ih =>
    rw [segments_run hrun]
    exact separated_annotated ih base reading
  | cons c rest hc ih =>
    rw [segments_cons hc]
    exact separated_consPlain ih c

/-! ## Nothing is lost -/

/-- Whatever a plain segment gives as it is, be it written, typed or read, grows by the character put in front. -/
theorem flatMap_consPlain {f : Segment → Text} (hf : ∀ t, f (.plain t) = t) (c : Char) (ss : List Segment) :
    (consPlain c ss).flatMap f = c :: ss.flatMap f := by
  unfold consPlain
  split <;> simp [hf]

theorem encode_segments (t : Text) : (segments t).flatMap Segment.encode = t := by
  induction t using run_induction with
  | nil => simp [segments]
  | run base reading rest hrun ih => rw [segments_run hrun, List.flatMap_cons, ih]
  | cons c rest hc ih => rw [segments_cons hc, flatMap_consPlain fun _ => rfl, ih]

/-! ## Exactly the runs -/

/-- A run by its position in a text, its base and its reading. -/
structure Run where
  start : Nat
  base : Text
  reading : Text
deriving DecidableEq, Repr

/-- The run stands in a text that is written from a position on. -/
structure Run.StandsIn (run : Run) (start : Nat) (t : Text) : Prop where
  isRun : IsRun run.base run.reading
  written : ∃ before after, t = before ++ ((Segment.annotated run.base run.reading).encode ++ after) ∧
    run.start = start + before.length

/-- The runs of segments that are written from a position on. -/
def runsFrom (start : Nat) : List Segment → List Run
  | [] => []
  | .plain t :: rest => runsFrom (start + t.length) rest
  | .annotated base reading :: rest =>
    ⟨start, base, reading⟩ :: runsFrom (start + (Segment.annotated base reading).encode.length) rest

theorem le_start_of_mem {run : Run} {ss : List Segment} {start : Nat} (h : run ∈ runsFrom start ss) :
    start ≤ run.start := by
  induction ss generalizing start with
  | nil => simp [runsFrom] at h
  | cons s ss ih =>
    cases s with
    | plain t => exact Nat.le_trans (Nat.le_add_right ..) (ih h)
    | annotated base reading =>
      rcases List.mem_cons.1 h with rfl | h
      · exact Nat.le_refl _
      · exact Nat.le_trans (Nat.le_add_right ..) (ih h)

/-- Runs are told in the order in which they are written. -/
theorem runsFrom_pairwise (start : Nat) (ss : List Segment) :
    (runsFrom start ss).Pairwise fun a b => a.start < b.start := by
  induction ss generalizing start with
  | nil => exact .nil
  | cons s ss ih =>
    cases s with
    | plain t => exact ih _
    | annotated base reading =>
      refine .cons (fun run hrun => ?_) (ih _)
      have hle := le_start_of_mem hrun
      simp only [Segment.encode, List.length_append, List.length_cons] at hle ⊢
      omega

theorem runsFrom_consPlain (start : Nat) (c : Char) (ss : List Segment) :
    runsFrom start (consPlain c ss) = runsFrom (start + 1) ss := by
  unfold consPlain
  split
  · simp only [runsFrom, List.length_cons]
    congr 1
    omega
  · simp [runsFrom]

theorem encode_annotated (base reading rest : Text) : (Segment.annotated base reading).encode ++ rest =
    anchor :: (base ++ separator :: (reading ++ terminator :: rest)) := by
  simp [Segment.encode]

theorem not_standsIn_nil (run : Run) (start : Nat) : ¬run.StandsIn start [] := by
  rintro ⟨-, before, after, h, -⟩
  simp [Segment.encode] at h

/-- A run that stands in a text stands at its front, or in what is left without the first character. -/
theorem standsIn_cons {run : Run} {start : Nat} {c : Char} {rest : Text} : run.StandsIn start (c :: rest) ↔
    (run.start = start ∧ IsRun run.base run.reading ∧
        ∃ after, c :: rest = (Segment.annotated run.base run.reading).encode ++ after) ∨
      run.StandsIn (start + 1) rest := by
  constructor
  · rintro ⟨hrun, before, after, h, hstart⟩
    cases before with
    | nil => exact .inl ⟨hstart, hrun, after, h⟩
    | cons d before =>
      cases h
      refine .inr ⟨hrun, before, after, rfl, ?_⟩
      rw [hstart, List.length_cons]
      omega
  · rintro (⟨hstart, hrun, after, h⟩ | ⟨hrun, before, after, rfl, hstart⟩)
    · exact ⟨hrun, [], after, h, hstart⟩
    · refine ⟨hrun, c :: before, after, rfl, ?_⟩
      rw [hstart, List.length_cons]
      omega

/-- No run begins in text without anchors. -/
theorem standsIn_append {run : Run} {start : Nat} {t rest : Text} (h : ∀ c ∈ t, c ≠ anchor) :
    run.StandsIn start (t ++ rest) ↔ run.StandsIn (start + t.length) rest := by
  induction t generalizing start with
  | nil => rfl
  | cons c t ih =>
    rw [List.forall_mem_cons] at h
    rw [List.cons_append, standsIn_cons, ih h.2, List.length_cons, Nat.add_right_comm, Nat.add_assoc, or_iff_right]
    rintro ⟨-, -, after, hc⟩
    rw [encode_annotated] at hc
    exact h.1 (List.cons.inj hc).1

theorem standsIn_encode {run : Run} {start : Nat} {base reading : Text} (h : IsRun base reading) (rest : Text) :
    run.StandsIn start ((Segment.annotated base reading).encode ++ rest) ↔
      run = ⟨start, base, reading⟩ ∨
        run.StandsIn (start + (Segment.annotated base reading).encode.length) rest := by
  have hanchor : ∀ c ∈ (base ++ separator :: reading) ++ [terminator], c ≠ anchor :=
    List.forall_mem_append.2 ⟨not_anchor_of_open h, List.forall_mem_singleton.2 (by decide)⟩
  have hsplit : (Segment.annotated base reading).encode ++ rest =
      anchor :: (((base ++ separator :: reading) ++ [terminator]) ++ rest) := by
    simp [Segment.encode]
  have hlength : (Segment.annotated base reading).encode.length =
      1 + ((base ++ separator :: reading) ++ [terminator]).length := by
    simp [Segment.encode]
    omega
  rw [hsplit, standsIn_cons, standsIn_append hanchor, ← hsplit, hlength, Nat.add_assoc]
  refine or_congr_left ?_
  constructor
  · rintro ⟨hstart, hrun, after, hafter⟩
    rw [encode_annotated, encode_annotated] at hafter
    -- only one base and one reading are taken after an anchor
    have htake := takeRun?_run h rest
    rw [(List.cons.inj hafter).2, takeRun?_run hrun] at htake
    cases run
    cases htake
    cases hstart
    rfl
  · rintro rfl
    exact ⟨rfl, h, rest, rfl⟩

/-- The annotated segments of a text are its runs. -/
theorem mem_runsFrom_segments {run : Run} {t : Text} {start : Nat} :
    run ∈ runsFrom start (segments t) ↔ run.StandsIn start t := by
  induction t using run_induction generalizing start with
  | nil => simp [segments, runsFrom, not_standsIn_nil]
  | run base reading rest hrun ih => rw [segments_run hrun, runsFrom, List.mem_cons, ih, standsIn_encode hrun]
  | cons c rest hc ih =>
    rw [segments_cons hc, runsFrom_consPlain, ih, standsIn_cons, or_iff_right]
    rintro ⟨-, hrun, after, h⟩
    rw [encode_annotated] at h
    obtain ⟨rfl, rfl⟩ := List.cons.inj h
    have hnone := hc rfl
    rw [takeRun?_run hrun] at hnone
    cases hnone

/-! ## Segments that are written -/

/-- The segment can be told from what is written, if not from plain text next to it. -/
def Segment.IsClear : Segment → Prop
  | .plain t => ∀ c ∈ t, isMarker c = false
  | .annotated base reading => IsRun base reading

instance : DecidablePred Segment.IsClear
  | .plain t => List.decidableBAll (isMarker · = false) t
  | .annotated base reading => inferInstanceAs (Decidable (IsRun base reading))

/-- Segments as they are read again: plain ones next to each other are one, and no plain one is empty. -/
def joined : List Segment → List Segment
  | [] => []
  | .plain t :: rest => prepend t (joined rest)
  | .annotated base reading :: rest => .annotated base reading :: joined rest

theorem segments_flatMap_encode {ss : List Segment} (h : ∀ s ∈ ss, s.IsClear) :
    segments (ss.flatMap Segment.encode) = joined ss := by
  induction ss with
  | nil => simp [segments, joined]
  | cons s ss ih =>
    obtain ⟨hs, hss⟩ := List.forall_mem_cons.1 h
    rw [List.flatMap_cons]
    cases s with
    | annotated base reading => rw [segments_run hs, ih hss, joined]
    | plain t =>
      have hanchor : ∀ c ∈ t, c ≠ anchor := by
        intro c hc
        exact (isMarker_false.1 (hs c hc)).1
      rw [Segment.encode, segments_append hanchor, ih hss, joined]

/-- What takes segments one after the other, and does not see where one plain segment ends and the next begins, does
not see whether they are joined. -/
theorem apply_joined {σ β : Type} (f : σ → List Segment → β) (empty : ∀ a ss, f a (.plain [] :: ss) = f a ss)
    (append : ∀ a t u ss, f a (.plain (t ++ u) :: ss) = f a (.plain t :: .plain u :: ss))
    (cons : ∀ s ss us, (∀ a, f a ss = f a us) → ∀ a, f a (s :: ss) = f a (s :: us)) (a : σ) (ss : List Segment) :
    f a (joined ss) = f a ss := by
  have hconsPlain : ∀ c a ss, f a (consPlain c ss) = f a (.plain [c] :: ss) := by
    intro c a ss
    unfold consPlain
    split
    · exact append a [c] _ _
    · rfl
  have hprepend : ∀ t a ss, f a (prepend t ss) = f a (.plain t :: ss) := by
    intro t
    induction t with
    | nil => exact fun a ss => (empty a ss).symm
    | cons c t ih =>
      intro a ss
      rw [prepend_cons, hconsPlain, cons _ _ _ fun a => ih a ss]
      exact (append a [c] t ss).symm
  induction ss generalizing a with
  | nil => rfl
  | cons s ss ih =>
    cases s with
    | plain t =>
      rw [joined, hprepend]
      exact cons _ _ _ ih a
    | annotated base reading => exact cons _ _ _ ih a

theorem flatMap_joined {f : Segment → Text} (hf : ∀ t, f (.plain t) = t) (ss : List Segment) :
    (joined ss).flatMap f = ss.flatMap f := by
  refine apply_joined (fun (_ : Unit) ss => ss.flatMap f) ?_ ?_ ?_ () ss
  · simp [hf]
  · simp [hf]
  · intro s ss us h _
    exact congrArg (f s ++ ·) (h ())

/-- What stands behind segments is joined to them alike if it is joined alike. -/
theorem joined_append_congr {us vs : List Segment} (h : joined us = joined vs) (ss : List Segment) :
    joined (ss ++ us) = joined (ss ++ vs) := by
  induction ss with
  | nil => exact h
  | cons s ss ih => cases s <;> simp only [List.cons_append, joined, ih]

/-- Segments that can be told from what is written: the plain ones have no markers, and the others are runs. -/
structure Canonical (ss : List Segment) : Prop extends Separated ss where
  plain : ∀ t, .plain t ∈ ss → ∀ c ∈ t, isMarker c = false
  annotated : ∀ base reading, .annotated base reading ∈ ss → IsRun base reading

theorem isClear_of_canonical {ss : List Segment} (h : Canonical ss) : ∀ s ∈ ss, s.IsClear := by
  intro s hs
  cases s with
  | plain t => exact h.plain t hs
  | annotated base reading => exact h.annotated base reading hs

/-- In front of a segment that is not plain a text is a segment of its own. -/
theorem prepend_of_not_plain {t : Text} {ss : List Segment} (ht : t ≠ [])
    (h : ∀ s ∈ ss.head?, s.isPlain = false) : prepend t ss = .plain t :: ss := by
  induction t with
  | nil => exact absurd rfl ht
  | cons c t ih =>
    cases t with
    | nil =>
      cases ss with
      | nil => rfl
      | cons s ss =>
        cases s with
        | plain => cases h _ rfl
        | annotated => rfl
    | cons d t => rw [prepend_cons, ih (List.cons_ne_nil d t), consPlain]

theorem joined_of_separated {ss : List Segment} (h : Separated ss) : joined ss = ss := by
  induction ss with
  | nil => rfl
  | cons s ss ih =>
    obtain ⟨hfirst, hrest⟩ := List.isChain_cons.1 h.apart
    have hss := ih ⟨fun t ht => h.ne_nil t (List.mem_cons_of_mem _ ht), hrest⟩
    cases s with
    | annotated base reading => rw [joined, hss]
    | plain t =>
      have hapart : ∀ s ∈ ss.head?, s.isPlain = false := by
        intro s hs
        simpa [Segment.isPlain] using hfirst s hs
      rw [joined, hss, prepend_of_not_plain (h.ne_nil t (by simp)) hapart]

theorem segments_encode {ss : List Segment} (h : Canonical ss) : segments (ss.flatMap Segment.encode) = ss := by
  rw [segments_flatMap_encode (isClear_of_canonical h), joined_of_separated h.toSeparated]

end KanaTutor.Ruby
