/-
The shorthand for annotated text. Braces are looked for from the front: an opening brace with a bar before the next
closing one begins a run, and any other is plain text and is passed over by itself. The induction follows these steps.

A run that is written out has three markers, each for a brace or bar of the shorthand, and nothing else is changed. So
where a text has no markers of its own, the shorthand can be told from what it is expanded to, and what is expanded is
split into the runs that stood between braces.
-/
import KanaTutor.Proofs.Ruby.Splitting
import KanaTutor.Proofs.Text.Cutting
import KanaTutor.Ruby.Shorthand

namespace KanaTutor.Ruby

/-! ## One step of the expansion -/

/-- Only the next closing brace ends what an opening brace begins, and only the first bar ends its base. -/
theorem takeBraces?_eq_some_iff {t base reading rest : Text} : takeBraces? t = some (base, reading, rest) ↔
    t = base ++ '|' :: (reading ++ '}' :: rest) ∧ '|' ∉ base ∧ '}' ∉ base ∧ '}' ∉ reading := by
  unfold takeBraces?
  constructor
  · intro h
    obtain ⟨⟨inside, rest'⟩, hinside, h⟩ := Option.bind_eq_some_iff.1 h
    obtain ⟨⟨base', reading'⟩, hbar, h⟩ := Option.bind_eq_some_iff.1 h
    cases h
    obtain ⟨rfl, hclose⟩ := Text.cutAt_eq_some_iff.1 hinside
    obtain ⟨rfl, hbase⟩ := Text.cutAt_eq_some_iff.1 hbar
    simp only [List.mem_append, List.mem_cons, not_or] at hclose
    exact ⟨by simp, hbase, hclose.1, hclose.2.2⟩
  · rintro ⟨rfl, hbar, hbase, hreading⟩
    have hclose : '}' ∉ base ++ '|' :: reading := by simp [hbase, hreading]
    have hsplit : base ++ '|' :: (reading ++ '}' :: rest) = (base ++ '|' :: reading) ++ '}' :: rest := by simp
    rw [hsplit, Text.cutAt_append hclose]
    show (Text.cutAt '|' (base ++ '|' :: reading)).bind _ = _
    rw [Text.cutAt_append hbar]
    rfl

theorem expandBraces_run {t base reading rest : Text} (h : takeBraces? t = some (base, reading, rest)) :
    expandBraces ('{' :: t) = (Segment.annotated base reading).encode ++ expandBraces rest := by
  rw [expandBraces, if_pos rfl]
  split
  · rename_i heq
    rw [h] at heq
    cases heq
    rfl
  · rename_i heq
    rw [h] at heq
    cases heq

theorem expandBraces_cons {c : Char} {rest : Text} (h : c = '{' → takeBraces? rest = none) :
    expandBraces (c :: rest) = c :: expandBraces rest := by
  rw [expandBraces]
  split
  · rename_i hc
    split
    · rename_i heq
      rw [h hc] at heq
      cases heq
    · rfl
  · rfl

/-- Text without opening braces stays as it is. -/
theorem expandBraces_append {t : Text} (h : '{' ∉ t) (rest : Text) :
    expandBraces (t ++ rest) = t ++ expandBraces rest := by
  induction t with
  | nil => rfl
  | cons c t ih =>
    rw [List.mem_cons, not_or] at h
    rw [List.cons_append, expandBraces_cons fun hc => absurd hc.symm h.1, ih h.2, List.cons_append]

/-! ## Nothing is lost -/

/-- The brace or bar that a marker is written for. -/
def unmark (c : Char) : Char :=
  if c = anchor then '{' else if c = separator then '|' else if c = terminator then '}' else c

theorem unmark_eq_self {c : Char} (h : isMarker c = false) : unmark c = c := by
  obtain ⟨hanchor, hseparator, hterminator⟩ := isMarker_false.1 h
  rw [unmark, if_neg hanchor, if_neg hseparator, if_neg hterminator]

theorem map_unmark {t : Text} (h : ∀ c ∈ t, isMarker c = false) : t.map unmark = t :=
  (List.map_congr_left fun c hc => unmark_eq_self (h c hc)).trans (List.map_id t)

theorem map_unmark_encode {base reading : Text} (hbase : ∀ c ∈ base, isMarker c = false)
    (hreading : ∀ c ∈ reading, isMarker c = false) :
    (Segment.annotated base reading).encode.map unmark = '{' :: (base ++ '|' :: (reading ++ ['}'])) := by
  have hmarkers : unmark anchor = '{' ∧ unmark separator = '|' ∧ unmark terminator = '}' := by decide
  simp only [Segment.encode, List.cons_append, List.append_assoc, List.map_cons, List.map_append, List.map_nil,
    map_unmark hbase, map_unmark hreading, hmarkers]

theorem map_unmark_expandBraces {t : Text} (h : ∀ c ∈ t, isMarker c = false) : (expandBraces t).map unmark = t := by
  induction t using expandBraces.induct with
  | case1 => rw [expandBraces, List.map_nil]
  | case2 t base reading rest htake ih =>
    obtain ⟨rfl, -, -, -⟩ := takeBraces?_eq_some_iff.1 htake
    simp only [List.forall_mem_cons, List.forall_mem_append] at h
    obtain ⟨-, hbase, -, hreading, -, hrest⟩ := h
    rw [expandBraces_run htake, List.map_append, map_unmark_encode hbase hreading, ih hrest]
    simp
  | case3 rest htake ih =>
    obtain ⟨hc, hrest⟩ := List.forall_mem_cons.1 h
    rw [expandBraces_cons fun _ => htake, List.map_cons, ih hrest]
    rfl
  | case4 c rest hc ih =>
    obtain ⟨hmarker, hrest⟩ := List.forall_mem_cons.1 h
    rw [expandBraces_cons fun h => absurd h hc, List.map_cons, ih hrest, unmark_eq_self hmarker]

/-! ## What the shorthand means -/

/-- A segment in shorthand. -/
def Segment.braced : Segment → Text
  | .plain t => t
  | .annotated base reading => '{' :: base ++ '|' :: reading ++ ['}']

/-- The segment can be told from its shorthand. -/
def Segment.IsBraceable : Segment → Prop
  | .plain t => ∀ c ∈ t, isMarker c = false ∧ c ≠ '{'
  | .annotated base reading =>
    (∀ c ∈ base, isMarker c = false ∧ c ≠ '{' ∧ c ≠ '|' ∧ c ≠ '}') ∧ ∀ c ∈ reading, isMarker c = false ∧ c ≠ '}'

instance : DecidablePred Segment.IsBraceable
  | .plain t => List.decidableBAll (fun c => isMarker c = false ∧ c ≠ '{') t
  | .annotated base reading => @instDecidableAnd _ _
    (List.decidableBAll (fun c => isMarker c = false ∧ c ≠ '{' ∧ c ≠ '|' ∧ c ≠ '}') base)
    (List.decidableBAll (fun c => isMarker c = false ∧ c ≠ '}') reading)

theorem isClear_of_isBraceable {s : Segment} (h : s.IsBraceable) : s.IsClear := by
  cases s with
  | plain t => exact fun c hc => (h c hc).1
  | annotated base reading =>
    refine ⟨fun c hc => (h.1 c hc).1, fun c hc => ?_⟩
    obtain ⟨hanchor, -, hterminator⟩ := isMarker_false.1 (h.2 c hc).1
    exact isReadable_true.2 ⟨hanchor, hterminator⟩

theorem expandBraces_braced {s : Segment} (h : s.IsBraceable) (rest : Text) :
    expandBraces (s.braced ++ rest) = s.encode ++ expandBraces rest := by
  cases s with
  | plain t => exact expandBraces_append (fun hmem => (h _ hmem).2 rfl) rest
  | annotated base reading =>
    have htake : takeBraces? (base ++ '|' :: (reading ++ '}' :: rest)) = some (base, reading, rest) :=
      takeBraces?_eq_some_iff.2 ⟨rfl, fun hmem => (h.1 _ hmem).2.2.1 rfl, fun hmem => (h.1 _ hmem).2.2.2 rfl,
        fun hmem => (h.2 _ hmem).2 rfl⟩
    have hwritten : (Segment.annotated base reading).braced ++ rest =
        '{' :: (base ++ '|' :: (reading ++ '}' :: rest)) := by simp [Segment.braced]
    rw [hwritten, expandBraces_run htake]

theorem expandBraces_flatMap_braced {ss : List Segment} (h : ∀ s ∈ ss, s.IsBraceable) :
    expandBraces (ss.flatMap Segment.braced) = ss.flatMap Segment.encode := by
  induction ss with
  | nil => rw [List.flatMap_nil, List.flatMap_nil, expandBraces]
  | cons s ss ih =>
    obtain ⟨hs, hss⟩ := List.forall_mem_cons.1 h
    rw [List.flatMap_cons, List.flatMap_cons, expandBraces_braced hs, ih hss]

/-- Where a text has no markers, it can be told from what its shorthand is expanded to: every marker stands for its
brace or bar, and every other character for itself. What is written in shorthand is typed as the bases of its segments,
and read as their readings in hiragana. -/
theorem expandBraces_meaning :
    (∀ t : Text, (∀ c ∈ t, isMarker c = false) → (expandBraces t).map unmark = t) ∧
    ∀ ss : List Segment, (∀ s ∈ ss, s.IsBraceable) →
      plain (expandBraces (ss.flatMap Segment.braced)) = ss.flatMap Segment.base ∧
      reading (expandBraces (ss.flatMap Segment.braced)) = Text.hiragana (ss.flatMap Segment.reading) := by
  refine ⟨fun t ht => map_unmark_expandBraces ht, fun ss hss => ?_⟩
  have hsegments : segments (expandBraces (ss.flatMap Segment.braced)) = joined ss := by
    rw [expandBraces_flatMap_braced hss]
    exact segments_flatMap_encode fun s hs => isClear_of_isBraceable (hss s hs)
  rw [plain, reading, hsegments, flatMap_joined fun _ => rfl, flatMap_joined fun _ => rfl]
  exact ⟨rfl, rfl⟩

namespace Shorthand

/-- Plain text with a bar and a closing brace, and runs of which one has a brace and a bar in its reading. -/
def written : List Segment :=
  [.plain ['|', '}'], .annotated ['木'] ['キ', '{', '|'], .plain ['の'], .plain ['葉'], .annotated [] ['ね']]

end Shorthand

theorem expandBraces_meaning_mixed :
    (∀ c ∈ Shorthand.written.flatMap Segment.braced, isMarker c = false) ∧
    (expandBraces (Shorthand.written.flatMap Segment.braced)).map unmark =
      ['|', '}', '{', '木', '|', 'キ', '{', '|', '}', 'の', '葉', '{', '|', 'ね', '}'] ∧
    (∀ s ∈ Shorthand.written, s.IsBraceable) ∧
    plain (expandBraces (Shorthand.written.flatMap Segment.braced)) = ['|', '}', '木', 'の', '葉'] ∧
    reading (expandBraces (Shorthand.written.flatMap Segment.braced)) =
      ['|', '}', 'き', '{', '|', 'の', '葉', 'ね'] := by
  have hmarkers : (Segment.plain (Shorthand.written.flatMap Segment.braced)).IsClear := by decide
  have hbraceable : ∀ s ∈ Shorthand.written, s.IsBraceable := by decide
  obtain ⟨hplain, hreading⟩ := expandBraces_meaning.2 _ hbraceable
  refine ⟨hmarkers, ?_, hbraceable, ?_, ?_⟩
  · rw [expandBraces_meaning.1 _ hmarkers]
    decide
  · rw [hplain]
    decide
  · rw [hreading]
    decide

end KanaTutor.Ruby
